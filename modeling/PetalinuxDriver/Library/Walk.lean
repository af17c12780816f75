import Mathlib.Data.List.Chain
import Mathlib.Data.List.Cycle

/-!
# Following links

A walk starts at a node, goes from each node to the one it links to, and ends at a given last node.
It is done in a number of steps that the caller bounds, so a cycle that misses the last node, or a
link that leads nowhere, gives no result. What a walk visits is exactly the list of nodes that are
linked one to the next from the first to the last (`walk_eq_some_iff`). Without a last node the
links can be followed for ever; they stay in a list exactly when it is a ring (`follow_ring_iff`).
-/

set_option autoImplicit false

namespace PetalinuxDriver.Library

variable {α : Type*} [DecidableEq α]

/-- The nodes from `a` to `stop`, when there are at most `n` of them. -/
def walk (next : α → Option α) (stop : α) : Nat → α → Option (List α)
  | 0, _ => none
  | n + 1, a =>
    if a = stop then some [a]
    else
      match next a with
      | none => none
      | some b => (walk next stop n b).map (a :: ·)

variable {next : α → Option α} {stop : α}

/-- **What a walk visits.** -/
theorem walk_eq_some_iff {n : Nat} {a : α} {l : List α} :
    walk next stop n a = some l ↔
      l.length ≤ n ∧ l.head? = some a ∧ l.getLast? = some stop ∧ stop ∉ l.dropLast ∧
        l.IsChain fun a b => next a = some b := by
  induction n generalizing a l with
  | zero =>
    constructor
    · intro h
      cases h
    · rintro ⟨hlen, hhead, -⟩
      have hnil : l = [] := List.eq_nil_of_length_eq_zero (by omega)
      rw [hnil] at hhead
      cases hhead
  | succ n ih =>
    unfold walk
    by_cases ha : a = stop
    · subst ha
      rw [if_pos rfl, Option.some.injEq]
      constructor
      · rintro rfl
        simp
      · rintro ⟨-, hhead, -, hnot, -⟩
        cases l with
        | nil => cases hhead
        | cons c l =>
          cases hhead
          cases l with
          | nil => rfl
          | cons d l => exact absurd List.mem_cons_self hnot
    · rw [if_neg ha]
      constructor
      · intro h
        cases hb : next a with
        | none =>
          rw [hb] at h
          cases h
        | some b =>
          rw [hb] at h
          obtain ⟨l', hl', rfl⟩ := Option.map_eq_some_iff.mp h
          obtain ⟨hlen, hhead, hlast, hnot, hchain⟩ := ih.mp hl'
          cases l' with
          | nil => cases hhead
          | cons c l' =>
            cases hhead
            refine ⟨by simpa using hlen, rfl, ?_, ?_, List.isChain_cons_cons.mpr ⟨hb, hchain⟩⟩
            · rw [List.getLast?_cons_cons]
              exact hlast
            · rw [List.dropLast_cons_cons]
              rintro (_ | ⟨_, hmem⟩)
              · exact ha rfl
              · exact hnot hmem
      · rintro ⟨hlen, hhead, hlast, hnot, hchain⟩
        cases l with
        | nil => cases hhead
        | cons c l =>
          cases hhead
          cases l with
          | nil =>
            cases hlast
            exact absurd rfl ha
          | cons b l =>
            obtain ⟨hnext, hchain⟩ := List.isChain_cons_cons.mp hchain
            rw [List.getLast?_cons_cons] at hlast
            rw [List.dropLast_cons_cons] at hnot
            have hrest := ih.mpr ⟨by simpa using hlen, rfl, hlast,
              fun hmem => hnot (List.mem_cons_of_mem _ hmem), hchain⟩
            rw [hnext]
            exact Option.map_eq_some_iff.mpr ⟨_, hrest, rfl⟩

/-- A list without repetitions whose elements are linked is what the walk from its head to its last
element visits. -/
theorem walk_of_isChain {n : Nat} {l : List α} {a : α} (hlen : l.length ≤ n) (hnodup : l.Nodup)
    (hhead : l.head? = some a) (hlast : l.getLast? = some stop)
    (hchain : l.IsChain fun a b => next a = some b) : walk next stop n a = some l := by
  refine walk_eq_some_iff.mpr ⟨hlen, hhead, hlast, ?_, hchain⟩
  rcases List.eq_nil_or_concat' l with rfl | ⟨l, b, rfl⟩
  · cases hhead
  · obtain rfl : b = stop := by simpa using hlast
    rw [List.dropLast_concat]
    intro hmem
    exact (List.nodup_append.mp hnodup).2.2 b hmem b (List.mem_singleton.mpr rfl) rfl

/-! ## Going on and on -/

omit [DecidableEq α]

/-- Where `n` links lead. -/
def follow (next : α → Option α) : Nat → α → Option α
  | 0, a => some a
  | n + 1, a => (follow next n a).bind next

/-- Following links from the head of a list visits it in order exactly when each element links to
the next one. -/
theorem follow_iff_isChain {l : List α} {a : α} (hhead : l.head? = some a) :
    (∀ (i : Nat) (hi : i < l.length), follow next i a = some l[i]) ↔
      l.IsChain fun a b => next a = some b := by
  rw [List.isChain_iff_getElem]
  have hfirst : ∀ h : 0 < l.length, l[0] = a := by
    intro h
    rw [List.head?_eq_getElem?, List.getElem?_eq_getElem h] at hhead
    exact Option.some.inj hhead
  constructor
  · intro hfollow i hi
    have hnext := hfollow (i + 1) hi
    rw [follow, hfollow i (by omega)] at hnext
    exact hnext
  · intro hchain i
    induction i with
    | zero =>
      intro hi
      rw [follow, hfirst hi]
    | succ i ih =>
      intro hi
      rw [follow, ih (by omega)]
      exact hchain i hi

/-- Only the links between elements of a ring matter. -/
theorem cycle_chain_congr {r r' : α → α → Prop} {l : List α}
    (h : ∀ a ∈ l, ∀ b ∈ l, r a b ↔ r' a b) :
    Cycle.Chain r (↑l : Cycle α) ↔ Cycle.Chain r' (↑l : Cycle α) := by
  cases l with
  | nil => exact Iff.rfl
  | cons a l =>
    have hmem : ∀ b ∈ a :: (l ++ [a]), b ∈ a :: l := by
      intro b hb
      simp only [List.mem_cons, List.mem_append, List.not_mem_nil, or_false] at hb ⊢
      tauto
    rw [Cycle.chain_coe_cons, Cycle.chain_coe_cons]
    apply List.IsChain.iff_of_mem_imp
    intro b c hb hc
    exact h b (hmem b hb) c (hmem c hc)

/-- **A ring.** From the head, links visit the list in order and then lead back to the head,
exactly when the elements are linked in a cycle. -/
theorem follow_ring_iff {l : List α} {a : α} :
    ((∀ (i : Nat) (hi : i < (a :: l).length), follow next i a = some (a :: l)[i]) ∧
        follow next (a :: l).length a = some a) ↔
      Cycle.Chain (fun a b => next a = some b) (↑(a :: l) : Cycle α) := by
  rw [Cycle.chain_coe_cons, ← List.cons_append,
    ← follow_iff_isChain (l := a :: l ++ [a]) (a := a) rfl]
  constructor
  · rintro ⟨hvisit, hback⟩ i hi
    by_cases hlast : i < (a :: l).length
    · rw [List.getElem_append_left hlast]
      exact hvisit i hlast
    · obtain rfl : i = (a :: l).length := by
        simp only [List.length_append, List.length_cons, List.length_nil] at hi hlast ⊢
        omega
      rw [List.getElem_append_right (le_refl _)]
      simpa using hback
  · intro hall
    constructor
    · intro i hi
      have hvisit := hall i (by rw [List.length_append]; omega)
      rw [List.getElem_append_left hi] at hvisit
      exact hvisit
    · have hback := hall (a :: l).length (by simp)
      rw [List.getElem_append_right (le_refl _)] at hback
      simpa using hback

end PetalinuxDriver.Library
