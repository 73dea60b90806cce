import GrammarTable.Proofs.Json.Document

/-!
# Reading JSON documents

A reader of JSON documents, and its agreement with their spelling: it reads a value from a
text exactly when the text is a document of that value. So a text is a document of at most
one value.
-/

namespace GrammarTable.Json

/-! ## The reader -/

def skip (cs : List Char) : List Char :=
  cs.dropWhile isBlank

def behind? (expected : Char) : List Char → Option (List Char)
  | [] => none
  | c :: rest => if c = expected then some rest else none

def readUnit? (cs : List Char) : Option (Nat × List Char) :=
  (unit? (cs.take 4)).map fun n => (n, cs.drop 4)

/-- The character that a number, or two halves of a pair, stand for behind the sign of such
an escape. -/
def readNumbered? (cs : List Char) : Option (Char × List Char) :=
  match readUnit? cs with
  | none => none
  | some (n, rest) =>
      if isHighHalf n then
        match rest with
        | '\\' :: 'u' :: rest =>
            match readUnit? rest with
            | none => none
            | some (low, rest) => if isLowHalf low then some (joined n low, rest) else none
        | _ => none
      else if isLowHalf n then none
      else some (Char.ofNat n, rest)

def readChar? : List Char → Option (Char × List Char)
  | [] => none
  | '\\' :: 'u' :: rest => readNumbered? rest
  | '\\' :: letter :: rest => (escaped? letter).map fun c => (c, rest)
  | c :: rest => if isPlain c then some (c, rest) else none

def readChars? : Nat → List Char → Option (List Char × List Char)
  | 0, _ => none
  | _ + 1, '"' :: rest => some ([], rest)
  | fuel + 1, cs =>
      match readChar? cs with
      | none => none
      | some (c, rest) => (readChars? fuel rest).map fun read => (c :: read.1, read.2)

def readKey? (fuel : Nat) (cs : List Char) : Option (String × List Char) := do
  let body ← behind? '"' (skip cs)
  let (name, rest) ← readChars? fuel body
  let rest ← behind? ':' (skip rest)
  return (String.ofList name, rest)

mutual

def readValue? : Nat → List Char → Option (Value × List Char)
  | 0, _ => none
  | fuel + 1, cs =>
      match cs with
      | 'n' :: 'u' :: 'l' :: 'l' :: rest => some (.null, rest)
      | 't' :: 'r' :: 'u' :: 'e' :: rest => some (.truth true, rest)
      | 'f' :: 'a' :: 'l' :: 's' :: 'e' :: rest => some (.truth false, rest)
      | '"' :: rest =>
          (readChars? fuel rest).map fun read => (.text (String.ofList read.1), read.2)
      | '[' :: rest =>
          match behind? ']' (skip rest) with
          | some rest => some (.array [], rest)
          | none => (readItems? fuel rest).map fun read => (.array read.1, read.2)
      | '\x7b' :: rest =>
          match behind? '\x7d' (skip rest) with
          | some rest => some (.object [], rest)
          | none => (readMembers? fuel rest).map fun read => (.object read.1, read.2)
      | _ =>
          if isNumber (cs.takeWhile isNumberPart) then
            some (.number (cs.takeWhile isNumberPart), cs.dropWhile isNumberPart)
          else none

def readItems? : Nat → List Char → Option (List Value × List Char)
  | 0, _ => none
  | fuel + 1, cs =>
      match readValue? fuel (skip cs) with
      | none => none
      | some (item, rest) =>
          match skip rest with
          | ']' :: rest => some ([item], rest)
          | ',' :: rest => (readItems? fuel rest).map fun read => (item :: read.1, read.2)
          | _ => none

def readMembers? : Nat → List Char → Option (List (String × Value) × List Char)
  | 0, _ => none
  | fuel + 1, cs =>
      match readKey? fuel cs with
      | none => none
      | some (name, rest) =>
          match readValue? fuel (skip rest) with
          | none => none
          | some (value, rest) =>
              match skip rest with
              | '\x7d' :: rest => some ([(name, value)], rest)
              | ',' :: rest =>
                  (readMembers? fuel rest).map fun read => ((name, value) :: read.1, read.2)
              | _ => none

end

def read? (text : List Char) : Option Value :=
  match readValue? (text.length + 1) (skip text) with
  | none => none
  | some (value, rest) => if (skip rest).isEmpty then some value else none

/-! ## Blanks -/

theorem blank_takeWhile (cs : List Char) : Blank (cs.takeWhile isBlank) :=
  List.all_eq_true.mp List.all_takeWhile

/-- Some blanks, then what `skip` leaves. -/
theorem exists_eq_append_skip (cs : List Char) : ∃ gap, Blank gap ∧ cs = gap ++ skip cs :=
  ⟨cs.takeWhile isBlank, blank_takeWhile cs, List.takeWhile_append_dropWhile.symm⟩

theorem skip_append {gap : List Char} (hgap : Blank gap) {rest : List Char}
    (hrest : ∀ c ∈ rest.head?, isBlank c = false) : skip (gap ++ rest) = rest := by
  induction gap with
  | nil =>
      cases rest with
      | nil => rfl
      | cons c rest =>
          have hc : isBlank c = false := hrest c rfl
          simp [skip, hc]
  | cons c gap ih =>
      have hc : isBlank c = true := hgap c List.mem_cons_self
      have hgap' : Blank gap := fun d hd => hgap d (List.mem_cons_of_mem c hd)
      simpa [skip, hc] using ih hgap'

theorem behind?_eq_some_iff {expected : Char} {cs rest : List Char} :
    behind? expected cs = some rest ↔ cs = expected :: rest := by
  cases cs with
  | nil => simp [behind?]
  | cons c cs => simp [behind?]

/-! ## Texts -/

theorem readUnit?_append {digits : List Char} {n : Nat} (h : unit? digits = some n)
    (rest : List Char) : readUnit? (digits ++ rest) = some (n, rest) := by
  have hlength : digits.length = 4 := by
    unfold unit? at h
    split at h
    · assumption
    · contradiction
  rw [readUnit?, ← hlength]
  simp [h]

theorem exists_of_readUnit? {cs rest : List Char} {n : Nat}
    (h : readUnit? cs = some (n, rest)) :
    ∃ digits, cs = digits ++ rest ∧ unit? digits = some n := by
  obtain ⟨m, hunit, heq⟩ := Option.map_eq_some_iff.mp h
  cases heq
  exact ⟨cs.take 4, (List.take_append_drop 4 cs).symm, hunit⟩

theorem exists_of_readNumbered? {cs rest : List Char} {c : Char}
    (h : readNumbered? cs = some (c, rest)) :
    ∃ digits, cs = digits ++ rest ∧ SpellsChar ('\\' :: 'u' :: digits) c := by
  unfold readNumbered? at h
  split at h
  · contradiction
  · rename_i n tail hread
    obtain ⟨digits, rfl, hunit⟩ := exists_of_readUnit? hread
    split at h
    · rename_i hhigh
      split at h
      · rename_i back
        split at h
        · contradiction
        · rename_i low tail hread'
          obtain ⟨digits', rfl, hunit'⟩ := exists_of_readUnit? hread'
          split at h
          · rename_i hlow
            obtain ⟨rfl, rfl⟩ := Prod.mk.inj (Option.some.inj h)
            exact ⟨digits ++ '\\' :: 'u' :: digits', by simp, .pair hunit hunit' hhigh hlow⟩
          · contradiction
      · contradiction
    · rename_i hhigh
      split at h
      · contradiction
      · rename_i hlow
        obtain ⟨rfl, rfl⟩ := Prod.mk.inj (Option.some.inj h)
        exact ⟨digits, rfl, .unit hunit (by simpa using hhigh) (by simpa using hlow)⟩

theorem readChar?_append {front : List Char} {c : Char} (h : SpellsChar front c)
    (rest : List Char) : readChar? (front ++ rest) = some (c, rest) := by
  cases h with
  | plain hplain =>
      have hc : c ≠ '\\' := by
        rintro rfl
        exact absurd hplain (by decide)
      simp [readChar?, hc, hplain]
  | @escape letter c hletter =>
      have hu : letter ≠ 'u' := by
        rintro rfl
        simp [escaped?] at hletter
      simp [readChar?, hletter]
  | unit hunit hhigh hlow =>
      simp [readChar?, readNumbered?, readUnit?_append hunit, hhigh, hlow]
  | pair hfront hback hhigh hlow =>
      simp [readChar?, readNumbered?, readUnit?_append hfront, readUnit?_append hback, hhigh,
        hlow]

theorem exists_of_readChar? {cs rest : List Char} {c : Char}
    (h : readChar? cs = some (c, rest)) : ∃ front, cs = front ++ rest ∧ SpellsChar front c := by
  unfold readChar? at h
  split at h
  · contradiction
  · obtain ⟨digits, rfl, hspells⟩ := exists_of_readNumbered? h
    exact ⟨'\\' :: 'u' :: digits, rfl, hspells⟩
  · obtain ⟨c', hletter, heq⟩ := Option.map_eq_some_iff.mp h
    cases heq
    exact ⟨_, rfl, .escape hletter⟩
  · split at h
    · cases h
      exact ⟨_, rfl, .plain ‹_›⟩
    · contradiction

/-- A spelling of a character starts with something other than the quote. -/
theorem SpellsChar.exists_cons {front : List Char} {c : Char} (h : SpellsChar front c) :
    ∃ d back, front = d :: back ∧ d ≠ '"' := by
  cases h with
  | plain hplain =>
      refine ⟨c, [], rfl, ?_⟩
      rintro rfl
      exact absurd hplain (by decide)
  | escape _ => exact ⟨_, _, rfl, by decide⟩
  | unit _ _ _ => exact ⟨_, _, rfl, by decide⟩
  | pair _ _ _ _ => exact ⟨_, _, rfl, by decide⟩

theorem readChars?_append {spelling text : List Char} (h : SpellsChars spelling text)
    (rest : List Char) {fuel : Nat} (hfuel : spelling.length < fuel) :
    readChars? fuel (spelling ++ '"' :: rest) = some (text, rest) := by
  induction h generalizing fuel with
  | nil =>
      obtain ⟨fuel, rfl⟩ := Nat.exists_eq_succ_of_ne_zero (Nat.ne_of_gt hfuel)
      rfl
  | @cons front back c cs hchar _ ih =>
      obtain ⟨fuel, rfl⟩ := Nat.exists_eq_succ_of_ne_zero (Nat.ne_zero_of_lt hfuel)
      obtain ⟨d, tail, rfl, hd⟩ := hchar.exists_cons
      have hread := readChar?_append hchar (back ++ '"' :: rest)
      have hshort : back.length < fuel := by
        simp only [List.length_append, List.length_cons] at hfuel
        omega
      have hback := ih hshort
      simp only [List.cons_append] at hread
      simp [readChars?, hd, hread, hback]

theorem exists_of_readChars? {fuel : Nat} {cs text rest : List Char}
    (h : readChars? fuel cs = some (text, rest)) :
    ∃ spelling, cs = spelling ++ '"' :: rest ∧ SpellsChars spelling text := by
  fun_induction readChars? fuel cs generalizing text rest with
  | case1 => contradiction
  | case2 fuel tail =>
      cases h
      exact ⟨[], rfl, .nil⟩
  | case3 => contradiction
  | case4 fuel cs hquote c tail hread ih =>
      obtain ⟨⟨text', rest'⟩, hrest, heq⟩ := Option.map_eq_some_iff.mp h
      cases heq
      obtain ⟨front, rfl, hchar⟩ := exists_of_readChar? hread
      obtain ⟨spelling, rfl, hchars⟩ := ih hrest
      exact ⟨front ++ spelling, by simp, .cons hchar hchars⟩

theorem readKey?_append {key : List Char} {name : String} (h : SpellsKey key name)
    (rest : List Char) {fuel : Nat} (hfuel : key.length ≤ fuel) :
    readKey? fuel (key ++ ':' :: rest) = some (name, rest) := by
  obtain @⟨before, spelling, after, name, hbefore, hchars, hafter⟩ := h
  have hbody : skip (before ++ '"' :: (spelling ++ '"' :: (after ++ ':' :: rest))) =
      '"' :: (spelling ++ '"' :: (after ++ ':' :: rest)) :=
    skip_append hbefore (by simp; decide)
  have hshort : spelling.length < fuel := by
    simp only [List.length_append, List.length_cons] at hfuel
    omega
  have hname := readChars?_append hchars (after ++ ':' :: rest) hshort
  have hcolon : skip (after ++ ':' :: rest) = ':' :: rest :=
    skip_append hafter (by simp; decide)
  have hkey : before ++ '"' :: (spelling ++ '"' :: after) ++ ':' :: rest =
      before ++ '"' :: (spelling ++ '"' :: (after ++ ':' :: rest)) := by simp
  simp [hkey, readKey?, hbody, behind?, hname, hcolon]

theorem exists_of_readKey? {fuel : Nat} {cs rest : List Char} {name : String}
    (h : readKey? fuel cs = some (name, rest)) :
    ∃ key, cs = key ++ ':' :: rest ∧ SpellsKey key name := by
  simp only [readKey?, Option.bind_eq_bind, Option.bind_eq_some_iff, behind?_eq_some_iff] at h
  obtain ⟨body, hbody, ⟨text, behind⟩, hread, rest', hcolon, heq⟩ := h
  cases heq
  obtain ⟨spelling, rfl, hchars⟩ := exists_of_readChars? hread
  obtain ⟨before, hbefore, hcs⟩ := exists_eq_append_skip cs
  obtain ⟨after, hafter, hbehind⟩ := exists_eq_append_skip behind
  refine ⟨before ++ '"' :: (spelling ++ '"' :: after), ?_, .mk hbefore hchars hafter⟩
  rw [hcs, hbody, hbehind, hcolon]
  simp

/-! ## Values -/

def Stops (rest : List Char) : Prop :=
  ∀ c ∈ rest.head?, isNumberPart c = false

theorem isBlank_eq_false_of_isNumberPart {c : Char} (h : isNumberPart c = true) :
    isBlank c = false := by
  cases hblank : isBlank c with
  | false => rfl
  | true =>
      simp only [isBlank, Bool.or_eq_true, beq_iff_eq] at hblank
      rcases hblank with ((rfl | rfl) | rfl) | rfl <;> exact absurd h (by decide)

/-- A number starts with a character of numbers and has no others. -/
theorem exists_cons_of_isNumber {cs : List Char} (h : isNumber cs = true) :
    (∃ c back, cs = c :: back ∧ isNumberPart c = true) ∧ ∀ c ∈ cs, isNumberPart c = true := by
  have hparts : ∀ c ∈ cs, isNumberPart c = true := by
    simp only [isNumber, Bool.and_eq_true, List.all_eq_true] at h
    exact h.1.1.1
  cases cs with
  | nil => exact absurd h (by decide)
  | cons c back => exact ⟨⟨c, back, rfl, hparts c List.mem_cons_self⟩, hparts⟩

/-- A spelling of a value starts with something other than a blank or the end of an array. -/
theorem Spells.exists_cons {cs : List Char} {value : Value} (h : Spells cs value) :
    ∃ c back, cs = c :: back ∧ isBlank c = false ∧ c ≠ ']' := by
  cases h with
  | number hnumber =>
      obtain ⟨⟨c, back, rfl, hc⟩, -⟩ := exists_cons_of_isNumber hnumber
      refine ⟨c, back, rfl, isBlank_eq_false_of_isNumberPart hc, ?_⟩
      rintro rfl
      exact absurd hc (by decide)
  | _ => exact ⟨_, _, rfl, by decide, by decide⟩

theorem skip_append_spells {gap cs : List Char} {value : Value} (hgap : Blank gap)
    (h : Spells cs value) (rest : List Char) : skip (gap ++ (cs ++ rest)) = cs ++ rest := by
  obtain ⟨c, back, rfl, hc, -⟩ := h.exists_cons
  exact skip_append hgap (by simpa using hc)

theorem stops_append {gap rest : List Char} (hgap : Blank gap) (hrest : Stops rest) :
    Stops (gap ++ rest) := by
  cases gap with
  | nil => exact hrest
  | cons d gap =>
      have hd : isBlank d = true := hgap d List.mem_cons_self
      intro e he
      obtain rfl : d = e := by simpa using he
      cases hpart : isNumberPart d with
      | false => rfl
      | true => simp [isBlank_eq_false_of_isNumberPart hpart] at hd

/-- What spells items does not go on with the end of an array. -/
theorem SpellsItems.behind?_skip {cs : List Char} {items : List Value}
    (h : SpellsItems cs items) (rest : List Char) : behind? ']' (skip (cs ++ rest)) = none := by
  have hvalue : ∀ {gap front value} (back : List Char), Blank gap → Spells front value →
      behind? ']' (skip (gap ++ (front ++ back))) = none := by
    intro gap front value back hgap hfront
    rw [skip_append_spells hgap hfront]
    obtain ⟨c, tail, rfl, -, hc⟩ := hfront.exists_cons
    simp [behind?, hc]
  cases h with
  | last hbefore hitem _ => simpa using hvalue _ hbefore hitem
  | more hbefore hitem _ _ => simpa using hvalue _ hbefore hitem

/-- What spells members does not go on with the end of an object. -/
theorem SpellsMembers.behind?_skip {cs : List Char} {members : List (String × Value)}
    (h : SpellsMembers cs members) (rest : List Char) :
    behind? '\x7d' (skip (cs ++ rest)) = none := by
  have hkey : ∀ {key name} (back : List Char), SpellsKey key name →
      behind? '\x7d' (skip (key ++ back)) = none := by
    rintro key name back @⟨before, spelling, after, name, hbefore, -, -⟩
    have hskip : skip (before ++ '"' :: (spelling ++ '"' :: (after ++ back))) =
        '"' :: (spelling ++ '"' :: (after ++ back)) :=
      skip_append hbefore (by simp; decide)
    simp [hskip, behind?]
  cases h with
  | last h _ _ _ => simpa using hkey _ h
  | more h _ _ _ _ => simpa using hkey _ h

theorem readValue?_number {cs : List Char} (h : isNumber cs = true) {rest : List Char}
    (hrest : Stops rest) (fuel : Nat) :
    readValue? (fuel + 1) (cs ++ rest) = some (.number cs, rest) := by
  obtain ⟨⟨c, back, rfl, hc⟩, hparts⟩ := exists_cons_of_isNumber h
  have htail : rest.takeWhile isNumberPart = [] ∧ rest.dropWhile isNumberPart = rest := by
    cases rest with
    | nil => exact ⟨rfl, rfl⟩
    | cons d rest =>
        have hd : isNumberPart d = false := hrest d rfl
        simp [hd]
  have htake : ((c :: back) ++ rest).takeWhile isNumberPart = c :: back := by
    rw [List.takeWhile_append_of_pos hparts, htail.1, List.append_nil]
  have hdrop : ((c :: back) ++ rest).dropWhile isNumberPart = rest := by
    rw [List.dropWhile_append_of_pos hparts, htail.2]
  have hhead : ∀ d tail, isNumberPart d = false → (c :: back) ++ rest ≠ d :: tail := by
    rintro d tail hd heq
    obtain ⟨rfl, -⟩ := List.cons.inj heq
    simp [hc] at hd
  unfold readValue?
  split
  case h_7 => rw [htake, hdrop, if_pos h]
  all_goals exact absurd ‹_› (hhead _ _ (by decide))

/-! ## Reading what is spelled -/

/-- What reading with some fuel owes to the spellings that are no longer than it. -/
structure Reads (fuel : Nat) : Prop where
  value : ∀ {cs value rest}, Spells cs value → cs.length ≤ fuel → Stops rest →
    readValue? fuel (cs ++ rest) = some (value, rest)
  items : ∀ {cs items} (rest), SpellsItems cs items → cs.length < fuel →
    readItems? fuel (cs ++ ']' :: rest) = some (items, rest)
  members : ∀ {cs members} (rest), SpellsMembers cs members → cs.length < fuel →
    readMembers? fuel (cs ++ '\x7d' :: rest) = some (members, rest)

theorem Reads.value_succ {fuel : Nat} (ih : Reads fuel) {cs rest : List Char} {value : Value}
    (h : Spells cs value) (hfuel : cs.length ≤ fuel + 1) (hrest : Stops rest) :
    readValue? (fuel + 1) (cs ++ rest) = some (value, rest) := by
  cases h with
  | null => rfl
  | yes => rfl
  | no => rfl
  | number hnumber => exact readValue?_number hnumber hrest fuel
  | @text cs text hchars =>
      have hshort : cs.length < fuel := by
        simp only [List.length_append, List.length_cons] at hfuel
        omega
      have hread := readChars?_append hchars rest hshort
      simp [readValue?, hread]
  | emptyArray hgap =>
      have hskip : skip (_ ++ ']' :: rest) = ']' :: rest := skip_append hgap (by simp; decide)
      simp [readValue?, hskip, behind?]
  | @array cs items hitems =>
      have hread := ih.items rest hitems (by simp at hfuel; omega)
      have hend := hitems.behind?_skip (']' :: rest)
      simp [readValue?, hend, hread]
  | emptyObject hgap =>
      have hskip : skip (_ ++ '\x7d' :: rest) = '\x7d' :: rest :=
        skip_append hgap (by simp; decide)
      simp [readValue?, hskip, behind?]
  | @object cs members hmembers =>
      have hread := ih.members rest hmembers (by simp at hfuel; omega)
      have hend := hmembers.behind?_skip ('\x7d' :: rest)
      simp [readValue?, hend, hread]

/-- An item, and what remains behind the blanks that follow it. -/
theorem Reads.value_skip {fuel : Nat} (ih : Reads fuel) (c : Char) (rest : List Char)
    {before cs after : List Char} {value : Value} (hbefore : Blank before) (h : Spells cs value)
    (hafter : Blank after) (hc : isNumberPart c = false) (hblank : isBlank c = false)
    (hfuel : cs.length ≤ fuel) :
    readValue? fuel (skip (before ++ (cs ++ (after ++ c :: rest)))) =
        some (value, after ++ c :: rest) ∧
      skip (after ++ c :: rest) = c :: rest := by
  rw [skip_append_spells hbefore h]
  have hstops : Stops (after ++ c :: rest) := stops_append hafter (by simpa [Stops] using hc)
  exact ⟨ih.value h hfuel hstops, skip_append hafter (by simpa)⟩

theorem Reads.items_succ {fuel : Nat} (ih : Reads fuel) {cs : List Char}
    {items : List Value} (rest : List Char) (h : SpellsItems cs items)
    (hfuel : cs.length < fuel + 1) :
    readItems? (fuel + 1) (cs ++ ']' :: rest) = some (items, rest) := by
  cases h with
  | last hbefore hitem hafter =>
      obtain ⟨hread, hskip⟩ := ih.value_skip ']' rest hbefore hitem hafter
        (by decide) (by decide) (by simp at hfuel; omega)
      simp [readItems?, hread, hskip]
  | @more before front after back item items hbefore hitem hafter hback =>
      obtain ⟨hread, hskip⟩ := ih.value_skip ',' (back ++ ']' :: rest) hbefore
        hitem hafter (by decide) (by decide) (by simp at hfuel; omega)
      have hitems := ih.items rest hback (by simp at hfuel; omega)
      simp [readItems?, hread, hskip, hitems]

theorem Reads.members_succ {fuel : Nat} (ih : Reads fuel) {cs : List Char}
    {members : List (String × Value)} (rest : List Char) (h : SpellsMembers cs members)
    (hfuel : cs.length < fuel + 1) :
    readMembers? (fuel + 1) (cs ++ '\x7d' :: rest) = some (members, rest) := by
  cases h with
  | @last key before front after name value hkey hbefore hvalue hafter =>
      have hshort : key.length ≤ fuel := by simp at hfuel; omega
      have hname := readKey?_append hkey (before ++ (front ++ (after ++ '\x7d' :: rest)))
        hshort
      obtain ⟨hread, hskip⟩ := ih.value_skip '\x7d' rest hbefore hvalue hafter
        (by decide) (by decide) (by simp at hfuel; omega)
      simp [readMembers?, hname, hread, hskip]
  | @more key before front after back name value members hkey hbefore hvalue hafter hback =>
      have hshort : key.length ≤ fuel := by simp at hfuel; omega
      have hname := readKey?_append hkey
        (before ++ (front ++ (after ++ ',' :: (back ++ '\x7d' :: rest))))
        hshort
      obtain ⟨hread, hskip⟩ := ih.value_skip ',' (back ++ '\x7d' :: rest) hbefore
        hvalue hafter (by decide) (by decide) (by simp at hfuel; omega)
      have hmembers := ih.members rest hback (by simp at hfuel; omega)
      simp [readMembers?, hname, hread, hskip, hmembers]

theorem reads (fuel : Nat) : Reads fuel := by
  induction fuel with
  | zero =>
      refine ⟨?_, ?_, ?_⟩
      · intro cs value rest h hfuel _
        obtain ⟨c, back, rfl, -, -⟩ := h.exists_cons
        simp at hfuel
      · intro cs items rest _ hfuel
        simp at hfuel
      · intro cs members rest _ hfuel
        simp at hfuel
  | succ fuel ih => exact ⟨ih.value_succ, ih.items_succ, ih.members_succ⟩

/-! ## Spelling what is read -/

/-- What has been read with some fuel was spelled in front of what remains. -/
structure Spelled (fuel : Nat) : Prop where
  value : ∀ {cs value rest}, readValue? fuel cs = some (value, rest) →
    ∃ front, cs = front ++ rest ∧ Spells front value
  items : ∀ {cs items rest}, readItems? fuel cs = some (items, rest) →
    ∃ front, cs = front ++ ']' :: rest ∧ SpellsItems front items
  members : ∀ {cs members rest}, readMembers? fuel cs = some (members, rest) →
    ∃ front, cs = front ++ '\x7d' :: rest ∧ SpellsMembers front members

theorem Spelled.value_succ {fuel : Nat} (ih : Spelled fuel) {cs rest : List Char}
    {value : Value} (h : readValue? (fuel + 1) cs = some (value, rest)) :
    ∃ front, cs = front ++ rest ∧ Spells front value := by
  unfold readValue? at h
  split at h
  · cases h
    exact ⟨_, rfl, .null⟩
  · cases h
    exact ⟨_, rfl, .yes⟩
  · cases h
    exact ⟨_, rfl, .no⟩
  · obtain ⟨⟨text, tail⟩, hread, heq⟩ := Option.map_eq_some_iff.mp h
    cases heq
    obtain ⟨spelling, rfl, hchars⟩ := exists_of_readChars? hread
    exact ⟨'"' :: (spelling ++ ['"']), by simp, .text hchars⟩
  · rename_i tail
    split at h
    · rename_i tail' hend
      cases h
      obtain ⟨gap, hgap, htail⟩ := exists_eq_append_skip tail
      rw [behind?_eq_some_iff.mp hend] at htail
      exact ⟨'[' :: (gap ++ [']']), by simp [htail], .emptyArray hgap⟩
    · obtain ⟨⟨items, tail'⟩, hread, heq⟩ := Option.map_eq_some_iff.mp h
      cases heq
      obtain ⟨front, rfl, hitems⟩ := ih.items hread
      exact ⟨'[' :: (front ++ [']']), by simp, .array hitems⟩
  · rename_i tail
    split at h
    · rename_i tail' hend
      cases h
      obtain ⟨gap, hgap, htail⟩ := exists_eq_append_skip tail
      rw [behind?_eq_some_iff.mp hend] at htail
      exact ⟨'\x7b' :: (gap ++ ['\x7d']), by simp [htail], .emptyObject hgap⟩
    · obtain ⟨⟨members, tail'⟩, hread, heq⟩ := Option.map_eq_some_iff.mp h
      cases heq
      obtain ⟨front, rfl, hmembers⟩ := ih.members hread
      exact ⟨'\x7b' :: (front ++ ['\x7d']), by simp, .object hmembers⟩
  · split at h
    · rename_i hnumber
      cases h
      exact ⟨cs.takeWhile isNumberPart, List.takeWhile_append_dropWhile.symm, .number hnumber⟩
    · contradiction

theorem Spelled.items_succ {fuel : Nat} (ih : Spelled fuel) {cs rest : List Char}
    {items : List Value} (h : readItems? (fuel + 1) cs = some (items, rest)) :
    ∃ front, cs = front ++ ']' :: rest ∧ SpellsItems front items := by
  obtain ⟨before, hbefore, hcs⟩ := exists_eq_append_skip cs
  unfold readItems? at h
  split at h
  · contradiction
  · rename_i item tail hread
    obtain ⟨front, hskip, hitem⟩ := ih.value hread
    obtain ⟨after, hafter, htail⟩ := exists_eq_append_skip tail
    rw [hskip, htail] at hcs
    split at h
    · rename_i back hback
      cases h
      exact ⟨before ++ (front ++ after), by simp [hcs, hback], .last hbefore hitem hafter⟩
    · rename_i back hback
      obtain ⟨⟨items', tail'⟩, hread', heq⟩ := Option.map_eq_some_iff.mp h
      cases heq
      obtain ⟨front', rfl, hitems⟩ := ih.items hread'
      exact ⟨before ++ (front ++ (after ++ ',' :: front')), by simp [hcs, hback],
        .more hbefore hitem hafter hitems⟩
    · contradiction

theorem Spelled.members_succ {fuel : Nat} (ih : Spelled fuel) {cs rest : List Char}
    {members : List (String × Value)}
    (h : readMembers? (fuel + 1) cs = some (members, rest)) :
    ∃ front, cs = front ++ '\x7d' :: rest ∧ SpellsMembers front members := by
  unfold readMembers? at h
  split at h
  · contradiction
  · rename_i name behind hname
    obtain ⟨key, rfl, hkey⟩ := exists_of_readKey? hname
    obtain ⟨before, hbefore, hbehind⟩ := exists_eq_append_skip behind
    split at h
    · contradiction
    · rename_i value tail hread
      obtain ⟨front, hskip, hvalue⟩ := ih.value hread
      obtain ⟨after, hafter, htail⟩ := exists_eq_append_skip tail
      rw [hskip, htail] at hbehind
      split at h
      · rename_i back hback
        cases h
        exact ⟨key ++ ':' :: (before ++ (front ++ after)), by simp [hbehind, hback],
          .last hkey hbefore hvalue hafter⟩
      · rename_i back hback
        obtain ⟨⟨members', tail'⟩, hread', heq⟩ := Option.map_eq_some_iff.mp h
        cases heq
        obtain ⟨front', rfl, hmembers⟩ := ih.members hread'
        exact ⟨key ++ ':' :: (before ++ (front ++ (after ++ ',' :: front'))),
          by simp [hbehind, hback], .more hkey hbefore hvalue hafter hmembers⟩
      · contradiction

theorem spelled (fuel : Nat) : Spelled fuel := by
  induction fuel with
  | zero =>
      refine ⟨?_, ?_, ?_⟩
      · intro cs value rest h
        simp [readValue?] at h
      · intro cs items rest h
        simp [readItems?] at h
      · intro cs members rest h
        simp [readMembers?] at h
  | succ fuel ih => exact ⟨ih.value_succ, ih.items_succ, ih.members_succ⟩

/-! ## Documents -/

/-- The reader finds a value exactly in the documents of that value. -/
theorem read?_eq_some_iff {text : List Char} {value : Value} :
    read? text = some value ↔ Document text value := by
  constructor
  · intro h
    unfold read? at h
    split at h
    · contradiction
    · rename_i value' tail hread
      split at h
      · rename_i hend
        cases h
        obtain ⟨before, hbefore, htext⟩ := exists_eq_append_skip text
        obtain ⟨front, hskip, hvalue⟩ := (spelled _).value hread
        obtain ⟨after, hafter, htail⟩ := exists_eq_append_skip tail
        rw [List.isEmpty_iff.mp hend, List.append_nil] at htail
        rw [htext, hskip, htail]
        exact .mk hbefore hvalue hafter
      · contradiction
  · rintro @⟨before, cs, after, value, hbefore, hvalue, hafter⟩
    have hstops : Stops after := by
      have hnil : Stops [] := by simp [Stops]
      simpa using stops_append hafter hnil
    have hread := (reads ((before ++ (cs ++ after)).length + 1)).value hvalue
      (by simp; omega) hstops
    have hend : skip after = [] := by
      have hblank : skip (after ++ []) = [] := skip_append hafter (by simp)
      simpa using hblank
    simp only [read?, skip_append_spells hbefore hvalue, hread, hend]
    rfl

/-- A text is a document of at most one value. -/
theorem Document.unique {text : List Char} {value other : Value} (h : Document text value)
    (hother : Document text other) : other = value := by
  have hread := read?_eq_some_iff.mpr h
  rw [read?_eq_some_iff.mpr hother] at hread
  exact Option.some.inj hread

end GrammarTable.Json
