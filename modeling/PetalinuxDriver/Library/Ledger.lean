import Mathlib.Algebra.Order.Group.Multiset

/-!
# Ledgers of acquired resources

A program that takes resources and gives them back leaves a log of `acquire`s and `release`s.
`replay` reads the log and keeps what is held; it fails at a release of what is not held, which
covers a release of what was never acquired and a second release of what was. A log is `Balanced`
when it can be read to its end and nothing is held then.
-/

set_option autoImplicit false

namespace PetalinuxDriver.Library

/-- One entry of a ledger. -/
inductive LedgerEntry (ρ : Type*) where
  | acquire (r : ρ)
  | release (r : ρ)
deriving DecidableEq, Repr

namespace LedgerEntry

variable {ρ : Type*} [DecidableEq ρ]

/-- What is held after a log, when it begins with `held` and releases only what is held. -/
def replay : Multiset ρ → List (LedgerEntry ρ) → Option (Multiset ρ)
  | held, [] => some held
  | held, acquire r :: log => replay (r ::ₘ held) log
  | held, release r :: log => if r ∈ held then replay (held.erase r) log else none

/-- Each resource in the log is released as often as it is acquired, and never before. -/
def Balanced (log : List (LedgerEntry ρ)) : Prop := replay 0 log = some 0

instance (log : List (LedgerEntry ρ)) : Decidable (Balanced log) :=
  inferInstanceAs (Decidable (replay 0 log = some 0))

/-- A ledger in two parts is replayed one after the other. -/
theorem replay_append (held : Multiset ρ) (log log' : List (LedgerEntry ρ)) :
    replay held (log ++ log') = (replay held log).bind fun held' => replay held' log' := by
  induction log generalizing held with
  | nil => rfl
  | cons e log ih =>
    cases e with
    | acquire r => exact ih (r ::ₘ held)
    | release r =>
      simp only [List.cons_append, replay]
      split
      · exact ih (held.erase r)
      · rfl

/-- What is taken and given back at once does not show. -/
@[simp] theorem replay_cancel (held : Multiset ρ) (r : ρ) (log : List (LedgerEntry ρ)) :
    replay held (acquire r :: release r :: log) = replay held log := by
  simp [replay]

/-- What is acquired at the end of a log is held then, too. -/
theorem replay_snoc_acquire {held held' : Multiset ρ} {log : List (LedgerEntry ρ)}
    (h : replay held log = some held') (r : ρ) :
    replay held (log ++ [acquire r]) = some (r ::ₘ held') := by
  rw [replay_append, h]
  rfl

/-- What is released at the end of a log is not held any more. -/
theorem replay_snoc_release {held held' : Multiset ρ} {log : List (LedgerEntry ρ)} {r : ρ}
    (h : replay held log = some (r ::ₘ held')) :
    replay held (log ++ [release r]) = some held' := by
  rw [replay_append, h]
  simp [replay]

/-- A log that can be read to its end is balanced when nothing is held then. -/
theorem balanced_iff_of_replay {held : Multiset ρ} {log : List (LedgerEntry ρ)}
    (h : replay 0 log = some held) : Balanced log ↔ held = 0 := by
  rw [Balanced, h, Option.some_inj]

/-- What is only acquired is held in the end. -/
theorem replay_acquires (held : Multiset ρ) (rs : List ρ) :
    replay held (rs.map acquire) = some (held + ↑rs) := by
  induction rs generalizing held with
  | nil => simp [replay]
  | cons r rs ih =>
    simp only [List.map_cons, replay, ih, ← Multiset.cons_coe]
    rw [Multiset.cons_add, Multiset.add_cons]

/-- Releases alone use up exactly what was held when they are the same resources. -/
theorem replay_releases (held : Multiset ρ) (rs : List ρ) :
    replay held (rs.map release) = some 0 ↔ held = ↑rs := by
  induction rs generalizing held with
  | nil => simp [replay]
  | cons r rs ih =>
    simp only [List.map_cons, replay]
    split
    · rename_i hr
      rw [ih, ← Multiset.cons_coe]
      constructor
      · intro h
        rw [← h, Multiset.cons_erase hr]
      · intro h
        rw [h, Multiset.erase_cons_head]
    · rename_i hr
      constructor
      · intro h
        cases h
      · intro h
        rw [h] at hr
        simp at hr

/-- Releases of some of what is held leave the rest. -/
theorem replay_releases_add (held : Multiset ρ) (rs : List ρ) :
    replay ((rs : Multiset ρ) + held) (rs.map release) = some held := by
  induction rs with
  | nil => simp [replay]
  | cons r rs ih =>
    rw [List.map_cons, replay, ← Multiset.cons_coe, Multiset.cons_add,
      if_pos (Multiset.mem_cons_self r _), Multiset.erase_cons_head]
    exact ih

/-- What is taken and then given back, the last first, does not show. -/
theorem replay_unwound (held : Multiset ρ) (rs : List ρ) :
    replay held (rs.map acquire ++ rs.reverse.map release) = some held := by
  rw [replay_append, replay_acquires, Option.bind_some, ← Multiset.coe_reverse, add_comm]
  exact replay_releases_add held rs.reverse

/-- **A leak.** What a log acquires, or what was held before it, and never releases is held after
it. -/
theorem mem_of_replay {held held' : Multiset ρ} {log : List (LedgerEntry ρ)} {r : ρ}
    (h : replay held log = some held') (hr : r ∈ held ∨ acquire r ∈ log)
    (hnot : release r ∉ log) : r ∈ held' := by
  induction log generalizing held with
  | nil =>
    cases h
    exact hr.resolve_right List.not_mem_nil
  | cons e log ih =>
    simp only [List.mem_cons, not_or] at hr hnot
    cases e with
    | acquire q =>
      refine ih h ?_ hnot.2
      rcases hr with hr | hr | hr
      · exact Or.inl (Multiset.mem_cons_of_mem hr)
      · cases hr
        exact Or.inl (Multiset.mem_cons_self r held)
      · exact Or.inr hr
    | release q =>
      simp only [replay] at h
      split at h
      · refine ih h ?_ hnot.2
        rcases hr with hr | hr | hr
        · have hne : r ≠ q := by
            rintro rfl
            exact hnot.1 rfl
          exact Or.inl ((Multiset.mem_erase_of_ne hne).mpr hr)
        · cases hr
        · exact Or.inr hr
      · cases h

/-- What is acquired and never released leaves a ledger unbalanced. -/
theorem not_balanced_of_leak {log : List (LedgerEntry ρ)} {r : ρ} (hr : acquire r ∈ log)
    (hnot : release r ∉ log) : ¬ Balanced log := by
  intro h
  exact Multiset.notMem_zero r (mem_of_replay h (Or.inr hr) hnot)

/-- What is held after a log was held before it or is acquired in it. -/
theorem acquired_of_mem_replay {held held' : Multiset ρ} {log : List (LedgerEntry ρ)} {r : ρ}
    (h : replay held log = some held') (hr : r ∈ held') : r ∈ held ∨ acquire r ∈ log := by
  induction log generalizing held with
  | nil =>
    cases h
    exact Or.inl hr
  | cons e log ih =>
    cases e with
    | acquire q =>
      rcases ih h with hheld | hlog
      · rcases Multiset.mem_cons.mp hheld with rfl | hheld
        · exact Or.inr List.mem_cons_self
        · exact Or.inl hheld
      · exact Or.inr (List.mem_cons_of_mem _ hlog)
    | release q =>
      simp only [replay] at h
      split at h
      · rcases ih h with hheld | hlog
        · exact Or.inl (Multiset.mem_of_mem_erase hheld)
        · exact Or.inr (List.mem_cons_of_mem _ hlog)
      · cases h

/-- **What is held is the difference.** A resource was held before a log or acquired in it as often as
it is held afterwards or released in it. -/
theorem replay_count {held held' : Multiset ρ} {log : List (LedgerEntry ρ)}
    (h : replay held log = some held') (r : ρ) :
    held.count r + log.count (acquire r) = held'.count r + log.count (release r) := by
  induction log generalizing held with
  | nil =>
    cases h
    simp
  | cons e log ih =>
    cases e with
    | acquire q =>
      have hrest := ih h
      by_cases hq : q = r
      · subst hq
        simp only [Multiset.count_cons_self, List.count_cons_self, List.count_cons, reduceCtorEq,
          beq_iff_eq, if_false] at hrest ⊢
        omega
      · have hne : r ≠ q := fun heq => hq heq.symm
        simpa [List.count_cons, Multiset.count_cons_of_ne hne, hq] using hrest
    | release q =>
      simp only [replay] at h
      split at h
      · rename_i hmem
        have hrest := ih h
        by_cases hq : q = r
        · subst hq
          have hpos := Multiset.count_pos.mpr hmem
          simp only [Multiset.count_erase_self, List.count_cons_self, List.count_cons, reduceCtorEq,
            beq_iff_eq, if_false] at hrest ⊢
          omega
        · have hne : r ≠ q := fun heq => hq heq.symm
          simpa [List.count_cons, Multiset.count_erase_of_ne hne, hq] using hrest
      · cases h

/-- A log that first acquires and then releases is balanced when it releases what it acquired. -/
theorem balanced_acquires_releases {as rs : List ρ} :
    Balanced (as.map acquire ++ rs.map release) ↔ as.Perm rs := by
  rw [Balanced, replay_append, replay_acquires, Option.bind_some, replay_releases, zero_add,
    Multiset.coe_eq_coe]

/-- What is taken and given back once has to be the same. -/
theorem balanced_pair (r r' : ρ) : Balanced [acquire r, release r'] ↔ r = r' := by
  have h : Balanced ([r].map acquire ++ [r'].map release) ↔ [r].Perm [r'] :=
    balanced_acquires_releases
  rw [List.singleton_perm_singleton] at h
  exact h

/-- One acquisition alone is no balanced ledger. -/
theorem not_balanced_acquire (r : ρ) : ¬ Balanced [acquire r] := by
  have h : Balanced ([r].map acquire ++ ([] : List ρ).map release) ↔ [r].Perm [] :=
    balanced_acquires_releases
  intro hbal
  exact List.cons_ne_nil r [] (h.mp hbal).eq_nil

end LedgerEntry

end PetalinuxDriver.Library
