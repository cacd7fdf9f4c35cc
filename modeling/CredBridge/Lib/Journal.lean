import Mathlib

/-! # Journals

A journal lists events, the latest first. It is sound when every event is justified by the events before it. -/

namespace Journal
variable {ε : Type _}

/-- Every event is justified by the events before it. -/
def Sound (J : List ε → ε → Prop) : List ε → Prop
  | [] => True
  | e :: earlier => J earlier e ∧ Sound J earlier

section Sound
variable {J : List ε → ε → Prop} {e : ε} {earlier later : List ε}

theorem Sound.cons (h : Sound J earlier) (he : J earlier e) : Sound J (e :: earlier) := ⟨he, h⟩

theorem Sound.of_append (h : Sound J (later ++ earlier)) : Sound J earlier := by
  induction later with
  | nil => exact h
  | cons e later ih => exact ih h.2

theorem Sound.justified (h : Sound J (later ++ e :: earlier)) : J earlier e := h.of_append.1

end Sound
end Journal
