import Mathlib.Data.List.Basic

/-!
# Packets of a stream

A stream is a list of beats. Some beats are marked as the first of a packet, some as the last. A
stream is well formed when it is made of packets one after the other, each with a first mark on its
first beat, a last mark on its last beat, and no other marks. `packets` cuts a stream at its marks
and refuses one that is not well formed; it finds exactly the packets that the stream was put
together from (`packets_eq_some_iff`).
-/

set_option autoImplicit false

namespace PetalinuxDriver.Library

variable {ι : Type*}

/-- The packets of the rest of a stream; `part` are the beats of the packet that has begun. -/
def packetsFrom (sop eop : ι → Bool) : List ι → List ι → Option (List (List ι))
  | part, [] => if part.isEmpty then some [] else none
  | part, i :: is =>
    if sop i = part.isEmpty then
      if eop i then (packetsFrom sop eop [] is).map ((part ++ [i]) :: ·)
      else packetsFrom sop eop (part ++ [i]) is
    else none

/-- The packets of a stream. -/
def packets (sop eop : ι → Bool) (is : List ι) : Option (List (List ι)) :=
  packetsFrom sop eop [] is

/-- The marks of a packet are on its first and on its last beat. -/
structure IsPacket (sop eop : ι → Bool) (p : List ι) : Prop where
  ne_nil : p ≠ []
  first : ∀ (n : Nat) (hn : n < p.length), sop p[n] = true ↔ n = 0
  last : ∀ (n : Nat) (hn : n < p.length), eop p[n] = true ↔ n + 1 = p.length

/-- The beats of a packet that has not ended. -/
structure IsPart (sop eop : ι → Bool) (part : List ι) : Prop where
  first : ∀ (n : Nat) (hn : n < part.length), sop part[n] = true ↔ n = 0
  last : ∀ (n : Nat) (hn : n < part.length), eop part[n] = false

variable {sop eop : ι → Bool} {part : List ι}

/-- No words at all are a part of a packet. -/
theorem IsPart.nil : IsPart sop eop [] := by
  constructor
  · intro n hn
    exact absurd hn (Nat.not_lt_zero n)
  · intro n hn
    exact absurd hn (Nat.not_lt_zero n)

/-- What holds of the beats that are there and of the one that comes holds of all. -/
theorem forall_getElem_concat {q : Nat → ι → Prop} {l : List ι} {i : ι}
    (hl : ∀ (n : Nat) (hn : n < l.length), q n l[n]) (hi : q l.length i) :
    ∀ (n : Nat) (hn : n < (l ++ [i]).length), q n (l ++ [i])[n] := by
  intro n hn
  by_cases hlt : n < l.length
  · rw [List.getElem_append_left hlt]
    exact hl n hlt
  · obtain rfl : n = l.length := by
      rw [List.length_append, List.length_singleton] at hn
      omega
    rw [List.getElem_concat_length rfl]
    exact hi

/-- `isEmpty` as a fact about the length. -/
theorem isEmpty_iff_length {l : List ι} : l.isEmpty = true ↔ l.length = 0 := by
  rw [List.isEmpty_iff, List.length_eq_zero_iff]

/-- A beat that is marked as first exactly when no packet has begun, and is not the last. -/
theorem IsPart.concat {i : ι} (h : IsPart sop eop part) (hsop : sop i = part.isEmpty)
    (heop : eop i = false) : IsPart sop eop (part ++ [i]) := by
  have hfirst : sop i = true ↔ part.length = 0 := by rw [hsop, isEmpty_iff_length]
  constructor
  · exact forall_getElem_concat (q := fun n j => sop j = true ↔ n = 0) h.first hfirst
  · exact forall_getElem_concat (q := fun _ j => eop j = false) h.last heop

/-- The beat that ends a packet. -/
theorem IsPart.close {i : ι} (h : IsPart sop eop part) (hsop : sop i = part.isEmpty)
    (heop : eop i = true) : IsPacket sop eop (part ++ [i]) := by
  have hfirst : sop i = true ↔ part.length = 0 := by rw [hsop, isEmpty_iff_length]
  refine ⟨by simp, ?_, ?_⟩
  · exact forall_getElem_concat (q := fun n j => sop j = true ↔ n = 0) h.first hfirst
  · have hbefore : ∀ (n : Nat) (hn : n < part.length),
        eop part[n] = true ↔ n + 1 = part.length + 1 := by
      intro n hn
      rw [h.last n hn]
      simp only [Bool.false_eq_true, false_iff]
      omega
    intro n hn
    rw [List.length_append, List.length_singleton]
    exact forall_getElem_concat (q := fun n j => eop j = true ↔ n + 1 = part.length + 1) hbefore
      (by simp [heop]) n hn

/-- A packet that a stream starts with goes beyond the part that has not ended, and the next beat
is in it. -/
theorem IsPart.lt_length {p rest is : List ι} {i : ι} (h : IsPart sop eop part)
    (hp : IsPacket sop eop p) (heq : part ++ i :: is = p ++ rest) :
    ∃ more, p = part ++ i :: more ∧ is = more ++ rest := by
  rcases List.append_eq_append_iff.mp heq with ⟨more, hmore, hrest⟩ | ⟨more, hpart, -⟩
  · cases more with
    | nil =>
      -- the packet would end with the part
      exfalso
      rw [List.append_nil] at hmore
      have hpos : 0 < p.length := List.length_pos_of_ne_nil hp.ne_nil
      have hlast := (hp.last (p.length - 1) (by omega)).mpr (by omega)
      subst hmore
      rw [h.last (p.length - 1) (by omega)] at hlast
      cases hlast
    | cons j more =>
      obtain ⟨rfl, his⟩ := List.cons.inj hrest
      exact ⟨more, hmore, his⟩
  · exfalso
    have hpos : 0 < p.length := List.length_pos_of_ne_nil hp.ne_nil
    have hlast := (hp.last (p.length - 1) (by omega)).mpr (by omega)
    subst hpart
    have hnone := h.last (p.length - 1) (by rw [List.length_append]; omega)
    rw [List.getElem_append_left (by omega), hlast] at hnone
    cases hnone

/-- The packets that go on from a part, in terms of the whole. -/
theorem packetsFrom_eq_some_iff {is : List ι} {ps : List (List ι)} (h : IsPart sop eop part) :
    packetsFrom sop eop part is = some ps ↔
      part ++ is = ps.flatten ∧ ∀ p ∈ ps, IsPacket sop eop p := by
  induction is generalizing part ps with
  | nil =>
    rw [List.append_nil]
    unfold packetsFrom
    constructor
    · intro hps
      split at hps
      · rename_i hempty
        cases hps
        rw [List.isEmpty_iff.mp hempty]
        simp
      · cases hps
    · rintro ⟨hflat, hall⟩
      cases ps with
      | nil =>
        rw [hflat]
        rfl
      | cons p ps =>
        -- the last beat of the first packet is in the part, which has no last beat
        exfalso
        have hp := hall p List.mem_cons_self
        have hpos : 0 < p.length := List.length_pos_of_ne_nil hp.ne_nil
        have hlast := (hp.last (p.length - 1) (by omega)).mpr (by omega)
        subst hflat
        have hnone := h.last (p.length - 1) (by simp; omega)
        simp only [List.flatten_cons] at hnone
        rw [List.getElem_append_left (by omega), hlast] at hnone
        cases hnone
  | cons i is ih =>
    have hsplit : ∀ {ps : List (List ι)}, part ++ i :: is = ps.flatten →
        (∀ p ∈ ps, IsPacket sop eop p) → ∃ more ps', ps = (part ++ i :: more) :: ps' ∧
          is = more ++ ps'.flatten := by
      intro ps hflat hall
      cases ps with
      | nil => simp at hflat
      | cons p ps =>
        obtain ⟨more, rfl, his⟩ := h.lt_length (hall p List.mem_cons_self) hflat
        exact ⟨more, ps, rfl, his⟩
    have hmark : ∀ {more : List ι}, IsPacket sop eop (part ++ i :: more) →
        sop i = part.isEmpty ∧ (eop i = true ↔ more = []) := by
      intro more hp
      have hlt : part.length < (part ++ i :: more).length := by simp
      have hfirst := hp.first part.length hlt
      have hlast := hp.last part.length hlt
      simp only [List.getElem_append_right (Nat.le_refl part.length), Nat.sub_self,
        List.getElem_cons_zero] at hfirst hlast
      refine ⟨?_, ?_⟩
      · rw [Bool.eq_iff_iff, hfirst, isEmpty_iff_length]
      · rw [hlast, ← List.length_eq_zero_iff, List.length_append, List.length_cons]
        omega
    unfold packetsFrom
    by_cases hsop : sop i = part.isEmpty
    · rw [if_pos hsop]
      cases heop : eop i with
      | true =>
        simp only [if_true]
        rw [Option.map_eq_some_iff]
        constructor
        · rintro ⟨ps', hps', rfl⟩
          obtain ⟨hflat, hall⟩ := (ih IsPart.nil).mp hps'
          rw [List.nil_append] at hflat
          refine ⟨by simp [hflat], ?_⟩
          intro p hp
          rcases List.mem_cons.mp hp with rfl | hp
          · exact h.close hsop heop
          · exact hall p hp
        · rintro ⟨hflat, hall⟩
          obtain ⟨more, ps', rfl, his⟩ := hsplit hflat hall
          obtain rfl := (hmark (hall _ List.mem_cons_self)).2.mp heop
          refine ⟨ps', (ih IsPart.nil).mpr ⟨?_, ?_⟩, rfl⟩
          · exact his
          · exact fun p hp => hall p (List.mem_cons_of_mem _ hp)
      | false =>
        simp only [Bool.false_eq_true, if_false]
        rw [ih (h.concat hsop heop), List.append_assoc]
        exact Iff.rfl
    · rw [if_neg hsop]
      constructor
      · intro hps
        cases hps
      · rintro ⟨hflat, hall⟩
        obtain ⟨more, ps', rfl, -⟩ := hsplit hflat hall
        exact absurd (hmark (hall _ List.mem_cons_self)).1 hsop

/-- **Framing is a round trip.** A stream that is put together from packets is cut into exactly
these, and a stream that can be cut was put together like this. -/
theorem packets_eq_some_iff {is : List ι} {ps : List (List ι)} :
    packets sop eop is = some ps ↔ is = ps.flatten ∧ ∀ p ∈ ps, IsPacket sop eop p := by
  rw [packets, packetsFrom_eq_some_iff IsPart.nil, List.nil_append]

end PetalinuxDriver.Library
