import Mathlib.Data.List.Nodup
import Mathlib.Data.List.Perm.Subperm
import PetalinuxDriver.Library.Transition

/-!
# A pipeline of queues

Elements are accepted one by one, wait, run together with everything that waited, finish together,
and are delivered from the front of what has finished. At any time the pipeline may be dropped,
which empties all of its queues. `accepted`, `completed`, `delivered` and `dropped` are histories:
they only grow.

Whatever the order of the steps, elements complete and are delivered in the order of acceptance,
at most once each, and an element that was dropped is never delivered (`InOrder.run`).
-/

set_option autoImplicit false

namespace PetalinuxDriver.Library

/-- The queues of a pipeline and its histories. -/
structure Pipeline (α : Type*) where
  accepted : List α
  waiting : List α
  running : List α
  finished : List α
  completed : List α
  delivered : List α
  dropped : List α

namespace Pipeline

variable {α : Type*}

/-- Nothing was accepted yet. -/
def empty : Pipeline α := ⟨[], [], [], [], [], [], []⟩

/-- What can be done to a pipeline. -/
inductive Action (α : Type*) where
  | accept (a : α)
  | start
  | finish
  /-- The first `n` finished elements are delivered. -/
  | deliver (n : Nat)
  | drop

/-- One action, when it is possible. -/
def step [DecidableEq α] (p : Pipeline α) : Action α → Option (Pipeline α)
  | .accept a =>
    if a ∈ p.accepted then none
    else some { p with accepted := p.accepted ++ [a], waiting := p.waiting ++ [a] }
  | .start => some { p with running := p.running ++ p.waiting, waiting := [] }
  | .finish => some { p with
      finished := p.finished ++ p.running
      completed := p.completed ++ p.running
      running := [] }
  | .deliver n => some { p with
      delivered := p.delivered ++ p.finished.take n
      finished := p.finished.drop n }
  | .drop => some { p with
      dropped := p.dropped ++ (p.waiting ++ p.finished ++ p.running)
      waiting := []
      running := []
      finished := [] }

/-- What holds in a pipeline at any time. -/
structure InOrder (p : Pipeline α) : Prop where
  /-- What was delivered and what is queued, front first, is in the order of acceptance. -/
  queued : (p.delivered ++ (p.finished ++ (p.running ++ p.waiting))).Sublist p.accepted
  /-- So is what completed and what has yet to. -/
  completed : (p.completed ++ (p.running ++ p.waiting)).Sublist p.accepted
  /-- Only what completed is delivered, and in that order. -/
  delivered : (p.delivered ++ p.finished).Sublist p.completed
  nodup : p.accepted.Nodup
  /-- What was dropped is in no queue, was not delivered, and was dropped once. -/
  dropped : (p.dropped ++ (p.delivered ++ (p.finished ++ (p.running ++ p.waiting)))).Nodup
  dropped_subset : p.dropped ⊆ p.accepted
  /-- Without a drop nothing is missing. -/
  complete : p.dropped = [] → p.completed ++ (p.running ++ p.waiting) = p.accepted

/-- The empty pipeline is in order. -/
theorem empty_inOrder : (empty : Pipeline α).InOrder :=
  ⟨List.Sublist.refl _, List.Sublist.refl _, List.Sublist.refl _, List.nodup_nil, List.nodup_nil,
    List.Subset.refl _, fun _ => rfl⟩

variable {p p' : Pipeline α}

/-- An accepted element is new and comes after all others. -/
theorem InOrder.accept {a : α} (h : p.InOrder) (ha : a ∉ p.accepted) :
    ({ p with accepted := p.accepted ++ [a], waiting := p.waiting ++ [a] } : Pipeline α).InOrder := by
  have hdropped : a ∉ p.dropped := fun hmem => ha (h.dropped_subset hmem)
  have hqueued : a ∉ p.delivered ++ (p.finished ++ (p.running ++ p.waiting)) := fun hmem =>
    ha (h.queued.subset hmem)
  have hlast : ∀ l : List α, l.Sublist p.accepted → (l ++ [a]).Sublist (p.accepted ++ [a]) :=
    fun l hl => hl.append (List.Sublist.refl [a])
  refine ⟨?_, ?_, h.delivered, ?_, ?_, ?_, fun hnone => ?_⟩
  · simpa only [List.append_assoc] using hlast _ h.queued
  · simpa only [List.append_assoc] using hlast _ h.completed
  · rw [List.nodup_append]
    refine ⟨h.nodup, List.nodup_singleton a, fun b hb c hc hbc => ha ?_⟩
    rw [← List.mem_singleton.mp hc, ← hbc]
    exact hb
  · have hnew : ((p.dropped ++ (p.delivered ++ (p.finished ++ (p.running ++ p.waiting)))) ++
        [a]).Nodup := by
      rw [List.nodup_append]
      refine ⟨h.dropped, List.nodup_singleton a, fun b hb c hc hbc => ?_⟩
      rw [List.mem_singleton.mp hc] at hbc
      subst hbc
      rcases List.mem_append.mp hb with hb | hb
      · exact hdropped hb
      · exact hqueued hb
    simpa only [List.append_assoc] using hnew
  · exact List.Subset.trans h.dropped_subset (List.subset_append_left _ _)
  · have hall := h.complete hnone
    simp only [← List.append_assoc] at hall ⊢
    rw [hall]

/-- A drop moves the queues to what was dropped. -/
theorem InOrder.drop (h : p.InOrder) :
    ({ p with
      dropped := p.dropped ++ (p.waiting ++ p.finished ++ p.running)
      waiting := []
      running := []
      finished := [] } : Pipeline α).InOrder := by
  have hperm : (p.dropped ++ (p.delivered ++ (p.finished ++ (p.running ++ p.waiting)))).Perm
      (p.dropped ++ (p.waiting ++ p.finished ++ p.running) ++ p.delivered) := by
    rw [List.append_assoc]
    refine List.Perm.append_left _ (List.perm_append_comm.trans (List.Perm.append_right _ ?_))
    rw [List.append_assoc, ← List.append_assoc]
    exact List.perm_append_comm
  refine ⟨?_, ?_, ?_, h.nodup, ?_, ?_, fun hnone => ?_⟩
  · simpa using (List.sublist_append_left _ _).trans h.queued
  · simpa using (List.sublist_append_left _ _).trans h.completed
  · simpa using (List.sublist_append_left _ _).trans h.delivered
  · simpa using hperm.nodup_iff.mp h.dropped
  · refine List.append_subset.mpr ⟨h.dropped_subset, fun a ha => h.queued.subset ?_⟩
    simp only [List.mem_append] at ha ⊢
    rcases ha with (ha | ha) | ha <;> simp [ha]
  · simp only [List.append_eq_nil_iff] at hnone
    obtain ⟨hdropped, ⟨hwaiting, hfinished⟩, hrunning⟩ := hnone
    have hall := h.complete hdropped
    rwa [hwaiting, hrunning] at hall

/-- One step keeps the order. -/
theorem step_inOrder [DecidableEq α] {a : Action α} (h : p.InOrder) (hs : p.step a = some p') : p'.InOrder := by
  cases a with
  | accept a =>
    simp only [step] at hs
    split at hs
    · cases hs
    · rename_i ha
      cases hs
      exact h.accept ha
  | start =>
    cases hs
    exact ⟨by simpa using h.queued, by simpa using h.completed, h.delivered, h.nodup,
      by simpa using h.dropped, h.dropped_subset, fun hnone => by simpa using h.complete hnone⟩
  | finish =>
    cases hs
    refine ⟨by simpa using h.queued, by simpa using h.completed, ?_, h.nodup,
      by simpa using h.dropped, h.dropped_subset, fun hnone => by simpa using h.complete hnone⟩
    simpa only [List.append_assoc] using h.delivered.append (List.Sublist.refl p.running)
  | deliver n =>
    cases hs
    refine ⟨?_, h.completed, ?_, h.nodup, ?_, h.dropped_subset, h.complete⟩
    · simpa only [List.append_assoc, List.take_append_drop, ← List.append_assoc (p.finished.take n)]
        using h.queued
    · simpa only [List.append_assoc, List.take_append_drop] using h.delivered
    · simpa only [List.append_assoc, List.take_append_drop, ← List.append_assoc (p.finished.take n)]
        using h.dropped
  | drop =>
    cases hs
    exact h.drop

/-- **Order in a pipeline**, over every run. -/
theorem InOrder.run [DecidableEq α] (hp : p.InOrder) (h : Reachable step always p p') :
    p'.InOrder :=
  h.invariant hp fun _ _ _ hp _ hs => step_inOrder hp hs

/-- A delivered element was not dropped. -/
theorem InOrder.notMem_dropped (h : p.InOrder) {a : α} (ha : a ∈ p.delivered) : a ∉ p.dropped := by
  intro hdropped
  have hdisj := (List.nodup_append.mp h.dropped).2.2
  exact hdisj a hdropped a (List.mem_append_left _ ha) rfl

end Pipeline

end PetalinuxDriver.Library
