import GrammarTable.Proofs.Bnf.Plain
import GrammarTable.Proofs.Grammar.Collected
import GrammarTable.Proofs.Iso.Plain
import GrammarTable.Proofs.W3c.Plain

/-!
# One grammar in three dialects

Productions are the same rules in every dialect. Only the places where the rules and their
parts stand differ.
-/

namespace GrammarTable.Plain

open Grammar Rule Settings Text Token

def manner : (dialect : Dialect) → Manner (Sign dialect)
  | .bnf => Bnf.manner
  | .w3c => W3c.manner
  | .iso => Iso.manner

theorem Productions.exists_source (productions : Productions) (dialect : Dialect) :
    ∃ source : String, productions.Written (manner dialect) source.toList := by
  have hjoint : [] ∈ (manner dialect).joints := by
    cases dialect <;> exact List.mem_cons_self
  obtain ⟨text, htext⟩ := productions.exists_written hjoint
  exact ⟨String.ofList text, by rwa [String.toList_ofList]⟩

theorem Productions.Written.exists_draftsOf {productions : Productions} {dialect : Dialect}
    {text : List Char} (h : productions.Written (manner dialect) text) :
    ∃ found, draftsOf dialect text = .ok found ∧
      found.map (Draft.moved fun _ => 0) = productions.list.map Production.draft := by
  cases dialect with
  | bnf => exact Bnf.suits.exists_rulesOf h
  | w3c => exact W3c.suits.exists_rulesOf h
  | iso => exact Iso.suits.exists_rulesOf h

/-- A source that productions are written as is read as what they say. -/
theorem Productions.Written.exists_read {productions : Productions} {dialect : Dialect}
    {source : String} (h : productions.Written (manner dialect) source.toList) :
    ∃ set : RuleSet, read dialect source = .ok set ∧
      set.rules.map (Draft.moved fun _ => 0) = productions.list.map Production.draft := by
  obtain ⟨found, hfound, hdrafts⟩ := h.exists_draftsOf
  have hnames : (found.map fun rule => rule.label.name) =
      productions.list.map fun production => production.name.text := by
    rw [← RuleSet.map_name_moved, hdrafts, List.map_map]
    rfl
  have hne : found ≠ [] := by
    rintro rfl
    exact productions.list_ne_nil (List.map_eq_nil_iff.mp hdrafts.symm)
  obtain ⟨set, hread, rfl⟩ :=
    exists_read_of_draftsOf hfound hne (hnames ▸ productions.names_nodup)
  exact ⟨set, hread, hdrafts⟩

/-- The same productions in all three dialects are the same rules, those that the productions
say, but for their places. -/
theorem read_productions {productions : Productions} {bnf w3c iso : String}
    (hbnf : productions.Written (manner .bnf) bnf.toList)
    (hw3c : productions.Written (manner .w3c) w3c.toList)
    (hiso : productions.Written (manner .iso) iso.toList) :
    ∃ first second third : RuleSet, read .bnf bnf = .ok first ∧ read .w3c w3c = .ok second ∧
      read .iso iso = .ok third ∧
      first.moved (fun _ => 0) = second.moved (fun _ => 0) ∧
      second.moved (fun _ => 0) = third.moved (fun _ => 0) ∧
      (first.moved fun _ => 0).rules = productions.list.map Production.draft := by
  obtain ⟨first, hfirst, hfirstDrafts⟩ := hbnf.exists_read
  obtain ⟨second, hsecond, hsecondDrafts⟩ := hw3c.exists_read
  obtain ⟨third, hthird, hthirdDrafts⟩ := hiso.exists_read
  refine ⟨first, second, third, hfirst, hsecond, hthird, ?_, ?_, hfirstDrafts⟩
  · exact RuleSet.eq_of_rules (hfirstDrafts.trans hsecondDrafts.symm)
  · exact RuleSet.eq_of_rules (hsecondDrafts.trans hthirdDrafts.symm)

/-! ## An example -/

/-- Two rules, the first of which ends in the name of the second. The literals look like the
start of a comment and like the end of a rule. -/
def sample : Productions where
  list :=
    [⟨⟨"a", by decide⟩,
        .snoc (.one (.one (.literal ⟨"(*", by decide, by decide⟩)))
          (.snoc (.one (.literal ⟨";", by decide, by decide⟩)) (.reference ⟨"b", by decide⟩))⟩,
      ⟨⟨"b", by decide⟩, .one (.one (.literal ⟨"it's", by decide, by decide⟩))⟩]
  list_ne_nil := List.cons_ne_nil _ _
  names_nodup := by decide

section Sample

variable {τ : Type} (manner : Manner τ) (joint : List (Word τ))

def sampleLines : List (List (Word τ)) :=
  [manner.name "a" :: manner.define ::
      ([manner.literal '\'' "(*"] ++ ([manner.bar] ++
        ([manner.literal '\'' ";"] ++ (joint ++ [manner.name "b"]))) ++ manner.ending),
    manner.name "b" :: manner.define :: ([manner.literal '"' "it's"] ++ manner.ending)]

variable {manner joint}

theorem sample_written (hjoint : joint ∈ manner.joints) :
    List.Forall₂ (Production.Written manner) sample.list (sampleLines manner joint) := by
  have hopener : Alternative.Written manner _ _ :=
    .one (.literal ⟨"(*", by decide, by decide⟩ (.inr rfl) (by decide))
  have hends : Alternative.Written manner _ _ :=
    .snoc (.one (.literal ⟨";", by decide, by decide⟩ (.inr rfl) (by decide))) hjoint
      (.reference ⟨"b", by decide⟩)
  have hquotes : Alternative.Written manner _ _ :=
    .one (.literal ⟨"it's", by decide, by decide⟩ (.inl rfl) (by decide))
  have hfirst : Body.Written manner _ _ := .snoc (.one hopener) List.mem_cons_self hends
  have hsecond : Body.Written manner _ _ := .one hquotes
  exact .cons ⟨_, hfirst, rfl⟩ (.cons ⟨_, hsecond, rfl⟩ .nil)

def spread (words : List (Word τ)) (gaps : List String) : List (Token.Written τ) :=
  List.zipWith (fun word gap => ⟨word.token, word.text, gap.toList⟩) words gaps

theorem sample_written_of_spread (hjoint : joint ∈ manner.joints) {text : List Char}
    (gaps : List String)
    (hwords : (sampleLines manner joint).flatten =
      (spread (sampleLines manner joint).flatten gaps).map Token.Written.word)
    (hgaps : ∀ one ∈ spread (sampleLines manner joint).flatten gaps,
      one.gap ≠ [] ∧ ∀ c ∈ one.gap, isSpacing c = true)
    (htext : text = Token.Written.textOf (spread (sampleLines manner joint).flatten gaps)) :
    sample.Written manner text :=
  ⟨_, [], _, sample_written hjoint, hwords, spaced_of_forall (List.forall_mem_nil _) hgaps, htext⟩

end Sample

theorem sample_written_bnf :
    sample.Written (manner .bnf) "<a> ::= '(*' | ';' <b>\n<b> ::= \"it's\"\n".toList :=
  sample_written_of_spread (List.mem_singleton_self [])
    [" ", " ", " ", " ", " ", "\n", " ", " ", "\n"] rfl (by decide) rfl

theorem sample_written_w3c :
    sample.Written (manner .w3c) "a ::= '(*' | ';' b\nb ::= \"it's\"\n".toList :=
  sample_written_of_spread (List.mem_singleton_self [])
    [" ", " ", " ", " ", " ", "\n", " ", " ", "\n"] rfl (by decide) rfl

theorem sample_written_iso :
    sample.Written (manner .iso) "a ::= '(*' | ';' , b ;\nb ::= \"it's\" ;\n".toList :=
  sample_written_of_spread (List.mem_cons_of_mem _ List.mem_cons_self)
    [" ", " ", " ", " ", " ", " ", " ", "\n", " ", " ", " ", "\n"] rfl (by decide) rfl

theorem read_productions_sample :
    ∃ first second third : RuleSet,
      read .bnf "<a> ::= '(*' | ';' <b>\n<b> ::= \"it's\"\n" = .ok first ∧
      read .w3c "a ::= '(*' | ';' b\nb ::= \"it's\"\n" = .ok second ∧
      read .iso "a ::= '(*' | ';' , b ;\nb ::= \"it's\" ;\n" = .ok third ∧
      first.moved (fun _ => 0) = second.moved (fun _ => 0) ∧
      second.moved (fun _ => 0) = third.moved (fun _ => 0) ∧
      (first.moved fun _ => 0).rules = sample.list.map Production.draft :=
  read_productions sample_written_bnf sample_written_w3c sample_written_iso

end GrammarTable.Plain
