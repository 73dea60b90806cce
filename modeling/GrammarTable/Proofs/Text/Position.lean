import GrammarTable.Text.Position

/-!
# Bytes and places

The bytes of a text add up along it, and the place of the byte behind a front is the place
behind the characters of the front.
-/

namespace GrammarTable.Text

theorem foldl_utf8Size (n : Nat) (cs : List Char) :
    cs.foldl (fun n c => n + c.utf8Size) n = n + byteLength cs := by
  induction cs generalizing n with
  | nil => rfl
  | cons c cs ih =>
      have hcons : byteLength (c :: cs) = cs.foldl (fun n c => n + c.utf8Size) (0 + c.utf8Size) :=
        rfl
      rw [List.foldl_cons, hcons, ih, ih]
      omega

@[simp] theorem byteLength_nil : byteLength [] = 0 := rfl

@[simp] theorem byteLength_cons (c : Char) (cs : List Char) :
    byteLength (c :: cs) = c.utf8Size + byteLength cs := by
  rw [byteLength, List.foldl_cons, foldl_utf8Size, Nat.zero_add]

@[simp] theorem byteLength_append (front back : List Char) :
    byteLength (front ++ back) = byteLength front + byteLength back := by
  induction front with
  | nil => simp
  | cons c front ih => simp [ih, Nat.add_assoc]

theorem byteLength_pos {cs : List Char} (h : cs ≠ []) : 0 < byteLength cs := by
  obtain ⟨c, rest, rfl⟩ := List.exists_cons_of_ne_nil h
  have hsize := c.utf8Size_pos
  rw [byteLength_cons]
  omega

/-- The characters before the byte behind a front are those of the front. -/
theorem charsBefore?_append (before front behind : List Char) :
    charsBefore? before (byteLength front) (front ++ behind) = some (before.reverse ++ front) := by
  induction front generalizing before with
  | nil => simp [charsBefore?]
  | cons c front ih =>
      have hsize := c.utf8Size_pos
      have hlength := byteLength_cons c front
      cases htotal : byteLength (c :: front) with
      | zero => omega
      | succ size =>
          have hrest : size + 1 - c.utf8Size = byteLength front := by omega
          have hfits : c.utf8Size ≤ size + 1 := by omega
          rw [List.cons_append, charsBefore?, if_pos hfits, hrest, ih]
          simp

theorem Position.ofOffset_append (front behind : List Char) :
    ofOffset (front ++ behind) (byteLength front) = after front := by
  rw [ofOffset, charsBefore?_append]
  rfl

end GrammarTable.Text
