import CredBridge.Lib.Hex

/-! # UUIDs

Five groups of hexadecimal digits with a dash between them. -/

/-- `group` is written with `n` hexadecimal digits. -/
def HexGroup (n : Nat) (group : List Char) : Prop := group.length = n ∧ ∀ c ∈ group, Hex.isDigit c = true

theorem hexGroup_replicate {n : Nat} {c : Char} (hc : Hex.isDigit c = true) : HexGroup n (List.replicate n c) :=
  ⟨List.length_replicate, fun _ hmem => List.eq_of_mem_replicate hmem ▸ hc⟩

structure Uuid where
  text : String
  form : ∃ a b c d e, text.toList = a ++ '-' :: (b ++ '-' :: (c ++ '-' :: (d ++ '-' :: e))) ∧
    HexGroup 8 a ∧ HexGroup 4 b ∧ HexGroup 4 c ∧ HexGroup 4 d ∧ HexGroup 12 e

namespace Uuid

def ofGroups (a b c d e : List Char)
    (h : HexGroup 8 a ∧ HexGroup 4 b ∧ HexGroup 4 c ∧ HexGroup 4 d ∧ HexGroup 12 e) : Uuid where
  text := String.ofList (a ++ '-' :: (b ++ '-' :: (c ++ '-' :: (d ++ '-' :: e))))
  form := ⟨a, b, c, d, e, String.toList_ofList, h⟩

/-- The text starts with eight digits and a dash. -/
theorem dash (id : Uuid) : ∃ digits rest, id.text.toList = digits ++ '-' :: rest ∧ HexGroup 8 digits := by
  obtain ⟨a, _, _, _, _, htext, ha, -⟩ := id.form
  exact ⟨a, _, htext, ha⟩

theorem text_ne_empty (id : Uuid) : id.text ≠ "" := by
  obtain ⟨digits, rest, htext, -⟩ := id.dash
  intro hempty
  rw [hempty] at htext
  exact absurd htext.symm (List.append_ne_nil_of_right_ne_nil _ (List.cons_ne_nil _ _))

end Uuid
