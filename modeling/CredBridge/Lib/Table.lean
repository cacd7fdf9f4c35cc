import Mathlib

/-! # Tables

Rows that are looked up and updated by a key. When no two rows have the same key, a lookup of a row's key
finds that row, and an update changes one summand of every sum over the rows. -/

namespace Table
variable {α κ : Type _} (key : α → κ)

def Keyed (rows : List α) : Prop := (rows.map key).Nodup

section Keyed
variable {key} {r r' : α} {rows : List α}

theorem Keyed.nil : Keyed key [] := List.nodup_nil

theorem Keyed.head (h : Keyed key (r :: rows)) : key r ∉ rows.map key := (List.nodup_cons.mp h).1

theorem Keyed.tail (h : Keyed key (r :: rows)) : Keyed key rows := (List.nodup_cons.mp h).2

theorem Keyed.append (h : Keyed key rows) (hr : key r ∉ rows.map key) : Keyed key (rows ++ [r]) := by
  unfold Keyed
  rw [List.map_append]
  exact List.nodup_append_comm.mp (List.nodup_cons.mpr ⟨hr, h⟩)

theorem Keyed.eq_of_key (h : Keyed key rows) (hr : r ∈ rows) (hr' : r' ∈ rows) (hk : key r = key r') : r = r' :=
  List.inj_on_of_nodup_map h hr hr' hk

theorem Keyed.nodup (h : Keyed key rows) : rows.Nodup := List.Nodup.of_map key h

theorem Keyed.countP_le_one [DecidableEq κ] {k : κ} (h : Keyed key rows) : rows.countP (fun r => key r = k) ≤ 1 := by
  have hcount : (rows.map key).count k = rows.countP fun r => key r = k := by
    rw [List.count_eq_countP, List.countP_map]
    exact List.countP_congr fun r _ => by simp
  rw [← hcount]
  exact List.nodup_iff_count_le_one.mp h k

theorem Keyed.sublist {rows' : List α} (h : Keyed key rows) (hsub : rows'.Sublist rows) : Keyed key rows' :=
  List.Nodup.sublist (hsub.map key) h

/-- Rows with different keys have different partners, where each partner has the key of its row. -/
theorem Keyed.exists_partners {β : Type _} {R : α → β → Prop} (h : Keyed key rows) (key' : β → κ)
    (hR : ∀ r ∈ rows, ∃ b, R r b ∧ key' b = key r) : ∃ bs, Keyed key' bs ∧ List.Forall₂ R rows bs := by
  have hpartners : ∃ bs : List β, bs.map key' = rows.map key ∧ List.Forall₂ R rows bs := by
    clear h
    induction rows with
    | nil => exact ⟨[], rfl, .nil⟩
    | cons r rows ih =>
      obtain ⟨b, hb, hkey⟩ := hR r List.mem_cons_self
      obtain ⟨bs, hkeys, hbs⟩ := ih fun r' hr' => hR r' (List.mem_cons_of_mem r hr')
      exact ⟨b :: bs, by rw [List.map_cons, List.map_cons, hkey, hkeys], .cons hb hbs⟩
  obtain ⟨bs, hkeys, hbs⟩ := hpartners
  refine ⟨bs, ?_, hbs⟩
  unfold Keyed
  rw [hkeys]
  exact h

end Keyed

variable [DecidableEq κ]

def find (k : κ) (rows : List α) : Option α := rows.find? fun r => key r = k

def modify (k : κ) (g : α → α) (rows : List α) : List α := rows.map fun r => if key r = k then g r else r

section Lookup
variable {key} {k : κ} {r : α} {rows : List α}

theorem mem_of_find (h : find key k rows = some r) : r ∈ rows := List.mem_of_find?_eq_some h

theorem key_of_find (h : find key k rows = some r) : key r = k := by
  unfold find at h
  simpa using List.find?_some h

theorem find_eq_some (hkeyed : Keyed key rows) : find key k rows = some r ↔ r ∈ rows ∧ key r = k := by
  constructor
  · exact fun h => ⟨mem_of_find h, key_of_find h⟩
  · rintro ⟨hr, rfl⟩
    cases h : find key (key r) rows with
    | none =>
      have hnone := List.find?_eq_none.mp h r hr
      exact absurd (decide_eq_true rfl) hnone
    | some r' => rw [hkeyed.eq_of_key (mem_of_find h) hr (key_of_find h)]

theorem find_eq_none : find key k rows = none ↔ k ∉ rows.map key := by
  unfold find
  rw [List.find?_eq_none, List.mem_map]
  constructor
  · rintro h ⟨r, hr, hk⟩
    exact h r hr (decide_eq_true hk)
  · exact fun h r hr hk => h ⟨r, hr, of_decide_eq_true hk⟩

end Lookup

section Modify
variable {key} {k : κ} {g : α → α} {r : α} {rows : List α}

theorem map_key_modify (hg : ∀ r, key r = k → key (g r) = k) : (modify key k g rows).map key = rows.map key := by
  unfold modify
  rw [List.map_map]
  refine List.map_congr_left fun r _ => ?_
  show key (if key r = k then g r else r) = key r
  split
  · next hk => rw [hg r hk, hk]
  · rfl

theorem Keyed.modify (h : Keyed key rows) (hg : ∀ r, key r = k → key (g r) = k) : Keyed key (modify key k g rows) := by
  unfold Keyed
  rw [map_key_modify hg]
  exact h

theorem modify_of_not_mem (h : k ∉ rows.map key) : modify key k g rows = rows := by
  induction rows with
  | nil => rfl
  | cons r rows ih =>
    have hne : key r ≠ k := fun he => h (he ▸ List.mem_cons_self)
    show (if key r = k then g r else r) :: modify key k g rows = r :: rows
    rw [if_neg hne, ih fun hmem => h (List.mem_cons_of_mem _ hmem)]

/-- An update that keeps the keys changes what is found under the key, and nothing else. -/
theorem find_modify {k' : κ} (hg : ∀ r, key r = k' → key (g r) = k') :
    find key k (modify key k' g rows) = (find key k rows).map fun r => if key r = k' then g r else r := by
  unfold find modify
  rw [List.find?_map]
  congr 2
  funext r
  simp only [Function.comp]
  split
  · next hr => rw [hg r hr, hr]
  · rfl

theorem find_append (h : find key k rows = some r) {r' : α} : find key k (rows ++ [r']) = some r := by
  unfold find at h ⊢
  rw [List.find?_append, h]
  rfl

theorem mem_modify {r' : α} : r' ∈ modify key k g rows ↔ ∃ r ∈ rows, (if key r = k then g r else r) = r' :=
  List.mem_map

theorem modify_append {rows' : List α} : modify key k g (rows ++ rows') = modify key k g rows ++ modify key k g rows' :=
  List.map_append

theorem filter_modify {p : α → Bool} (hp : ∀ r, p (g r) = p r) :
    (modify key k g rows).filter p = modify key k g (rows.filter p) := by
  unfold modify
  rw [List.filter_map]
  refine congrArg (List.map _) (List.filter_congr fun r _ => ?_)
  dsimp only [Function.comp_apply]
  split
  · exact hp r
  · rfl

theorem find_filter {p : α → Bool} (hp : ∀ r ∈ rows, key r = k → p r = true) :
    find key k (rows.filter p) = find key k rows := by
  unfold find
  rw [List.find?_filter]
  refine List.find?_congr fun r hr => ?_
  by_cases hk : key r = k
  · simp [hk, hp r hr hk]
  · simp [hk]

theorem modify_self (hkeyed : Keyed key rows) (hr : r ∈ rows) : modify key (key r) (fun _ => r) rows = rows := by
  unfold modify
  conv_rhs => rw [← List.map_id rows]
  refine List.map_congr_left fun x hx => ?_
  by_cases hkey : key x = key r
  · rw [if_pos hkey]
    exact (hkeyed.eq_of_key hx hr hkey).symm
  · rw [if_neg hkey]
    rfl

/-- After a row is put in the place of the one with its key, the rows are this row and those with other keys. -/
theorem mem_modify_const {x r' : α} (hk : k ∈ rows.map key) :
    r' ∈ modify key k (fun _ => x) rows ↔ r' = x ∨ r' ∈ rows ∧ key r' ≠ k := by
  rw [mem_modify]
  constructor
  · rintro ⟨r, hr, rfl⟩
    by_cases hkey : key r = k
    · exact .inl (if_pos hkey)
    · exact .inr (by rw [if_neg hkey]; exact ⟨hr, hkey⟩)
  · rintro (rfl | ⟨hr, hkey⟩)
    · obtain ⟨r, hr, hrk⟩ := List.mem_map.mp hk
      exact ⟨r, hr, if_pos hrk⟩
    · exact ⟨r', hr, if_neg hkey⟩

/-- An update of the row `r` changes the summand of `r` in a sum over the rows. -/
theorem sum_modify {f : α → Int} (hkeyed : Keyed key rows) (hr : r ∈ rows) :
    ((modify key (key r) g rows).map f).sum = (rows.map f).sum - f r + f (g r) := by
  induction rows with
  | nil => cases hr
  | cons x rows ih =>
    show ((if key x = key r then g x else x) :: modify key (key r) g rows |>.map f).sum = _
    simp only [List.map_cons, List.sum_cons]
    rcases List.mem_cons.mp hr with rfl | hmem
    · rw [if_pos rfl, modify_of_not_mem hkeyed.head]
      omega
    · have hne : key x ≠ key r := fun he => hkeyed.head (he ▸ List.mem_map_of_mem hmem)
      rw [if_neg hne, ih hkeyed.tail hmem]
      omega

theorem sum_append_singleton {f : α → Int} : ((rows ++ [r]).map f).sum = (rows.map f).sum + f r := by
  simp

theorem le_sum {f : α → Int} (hf : ∀ x ∈ rows, 0 ≤ f x) (hr : r ∈ rows) : f r ≤ (rows.map f).sum := by
  have hall : ∀ y ∈ rows.map f, 0 ≤ y := fun y hy => by
    obtain ⟨x, hx, rfl⟩ := List.mem_map.mp hy
    exact hf x hx
  exact List.single_le_sum hall _ (List.mem_map_of_mem hr)

end Modify
end Table
