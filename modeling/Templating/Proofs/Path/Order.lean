import Templating.Path.Basic
import Mathlib.Data.List.Sort

/-!
# The order of paths

Paths are put in order component by component.  Paths that come together are the same place, so what is
sorted and rid of repetitions goes strictly up.

## What is here

* `pairwise_mergeSort_isLE` and `pairwise_lt` are about sorting by any order.
* `Path.order` is an order, and `Path.order_eq_iff` says which paths come together.
-/

set_option autoImplicit false

namespace Templating

/-! ## Sorting

Nothing here is about paths.  An order may have several elements at one place; when all but one of them
are left out, what is sorted goes strictly up. -/

section Sorting

variable {α : Type} {order : α → α → Ordering} {l : List α}

/-- What is sorted is in order. -/
theorem pairwise_mergeSort_isLE [Std.TransCmp order] (l : List α) :
    (l.mergeSort fun a b => (order a b).isLE).Pairwise fun a b => (order a b).isLE = true := by
  refine List.pairwise_mergeSort (fun a b c => Std.TransCmp.isLE_trans) (fun a b => ?_) l
  rw [Bool.or_eq_true]
  cases h : order a b with
  | lt => exact .inl rfl
  | eq => exact .inl rfl
  | gt => exact .inr (by rw [← Std.OrientedCmp.isGE_iff_isLE, h]; rfl)

/-- What is in order and does not come together goes strictly up. -/
theorem pairwise_lt (hle : l.Pairwise fun a b => (order a b).isLE = true)
    (hne : l.Pairwise fun a b => order a b ≠ .eq) : l.Pairwise fun a b => order a b = .lt := by
  refine (hle.and hne).imp fun {a b} ⟨hab, hab'⟩ => ?_
  cases h : order a b with
  | lt => rfl
  | eq => exact absurd h hab'
  | gt => rw [h] at hab; cases hab

/-- A list that goes strictly up is determined by what is in it. -/
theorem eq_of_pairwise_lt [Std.TransCmp order] {l l' : List α}
    (h : l.Pairwise fun a b => order a b = .lt) (h' : l'.Pairwise fun a b => order a b = .lt)
    (hmem : ∀ a, a ∈ l ↔ a ∈ l') : l = l' := by
  have hself (a : α) : order a a = .eq := Std.ReflCmp.compare_self
  have hswap (a b : α) : order b a = (order a b).swap := Std.OrientedCmp.eq_swap
  have hirrefl : Std.Irrefl fun a b => order a b = .lt :=
    ⟨fun a ha => by rw [hself] at ha; cases ha⟩
  have hantisymm : Std.Antisymm fun a b => order a b = .lt :=
    ⟨fun a b hab hba => by rw [hswap, hab] at hba; cases hba⟩
  exact h.eq_of_mem_iff h' hmem

/-- Repetitions are left out, and nothing else is changed. -/
theorem eraseDups_sublist [BEq α] (l : List α) : l.eraseDups.Sublist l := by
  induction hn : l.length using Nat.strongRecOn generalizing l with
  | ind n ih =>
    cases l with
    | nil => simp
    | cons a l =>
      rw [List.eraseDups_cons]
      have hlen := List.length_filter_le (fun b => !b == a) l
      have htail := ih _ (by rw [← hn, List.length_cons]; omega) (l.filter fun b => !b == a) rfl
      exact (htail.trans List.filter_sublist).cons_cons a

/-- None is left. -/
theorem nodup_eraseDups [BEq α] [LawfulBEq α] (l : List α) : l.eraseDups.Nodup := by
  induction hn : l.length using Nat.strongRecOn generalizing l with
  | ind n ih =>
    cases l with
    | nil => simp
    | cons a l =>
      have hlen := List.length_filter_le (fun b => !b == a) l
      rw [List.eraseDups_cons, List.nodup_cons]
      exact ⟨by simp [List.mem_eraseDups], ih _ (by rw [← hn, List.length_cons]; omega) _ rfl⟩

end Sorting

/-! ## Paths

Components are ranked by what they are and then by their names, so different components have different
ranks. -/

/-- Texts are told apart by their code points. -/
theorem map_toNat_inj {s t : Text} : s.map Char.toNat = t.map Char.toNat ↔ s = t :=
  (List.map_injective_iff.2 fun _ _ => Char.toNat_inj.1).eq_iff

/-- Components are told apart by their ranks. -/
theorem Component.rank_injective : Function.Injective Component.rank := by
  intro c d h
  cases c <;> cases d <;> simp [rank, map_toNat_inj] at h ⊢
  exact h

namespace Path

instance : Std.TransCmp order :=
  inferInstanceAs (Std.TransCmp (compareOn fun p : Path => p.components.map Component.rank))

/-- Paths come together exactly if they are the same place. -/
theorem order_eq_iff {p q : Path} : p.order q = .eq ↔ Same p q := by
  rw [order, Std.LawfulEqCmp.compare_eq_iff_eq]
  exact (List.map_injective_iff.2 Component.rank_injective).eq_iff

/-- There is one way to list some places in order. -/
theorem forall₂_same_of_increasing {l l' : List Path} (h : l.Pairwise fun p q => p.order q = .lt)
    (h' : l'.Pairwise fun p q => p.order q = .lt)
    (hmem : ∀ q, (∃ p ∈ l, Same p q) ↔ ∃ p ∈ l', Same p q) : List.Forall₂ Same l l' := by
  have hcomponents : l.map components = l'.map components := by
    have hlt {l : List Path} (h : l.Pairwise fun p q => p.order q = .lt) :
        (l.map components).Pairwise fun cs ds => compareOn (List.map Component.rank) cs ds = .lt :=
      List.pairwise_map.2 h
    refine eq_of_pairwise_lt (hlt h) (hlt h') fun cs => ?_
    rw [List.mem_map, List.mem_map]
    constructor
    · rintro ⟨p, hp, rfl⟩
      exact (hmem p).1 ⟨p, hp, .refl p⟩
    · rintro ⟨p, hp, rfl⟩
      exact (hmem p).2 ⟨p, hp, .refl p⟩
  rwa [← List.forall₂_eq_eq_eq, List.forall₂_map_left_iff, List.forall₂_map_right_iff] at hcomponents

end Path

end Templating
