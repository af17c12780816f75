import PetalinuxDriver.Analysis.History
import PetalinuxDriver.Analysis.SegmentWrites

/-!
# Recycled segments carry nothing over

A builder writes some of the words of a segment and leaves the others as it finds them. What it
finds is a segment of the pool, and there all words but the link are zero
(`poolClean_of_reachable`). So the words of a new descriptor, links apart, are a function of the
arguments (`newWords`): the history of the channel does not show in them. This holds of a builder
that runs through (`BuiltWords.words_eq`), and of one that other calls, the engine and the cleanup
interrupt between any two rounds: what it has filled so far is its own, and stays as it is
(`sectionStep_filledSoFar`).
-/

set_option autoImplicit false

namespace PetalinuxDriver

open Library

variable {cfg : PhysAddrConfig}

/-! ## The words of a descriptor without its history -/

/-- All words but those of the link. -/
def XilinxDmaDescHw.unlinked (hw : XilinxDmaDescHw) : XilinxDmaDescHw :=
  { hw with nextDesc := 0, nextDescMsb := 0 }

/-- A clean segment is zero but for its links. -/
theorem unlinked_of_clean {hw : XilinxDmaDescHw} (h : hw.Clean) : hw.unlinked = zeroDescHw := by
  unfold XilinxDmaDescHw.Clean at h
  rw [← h]
  rfl

/-- What a round writes does not depend on the links. -/
theorem fillHwDesc_unlinked (app : Option AppWords) (c : Chunk cfg) (hw : XilinxDmaDescHw) :
    (fillHwDesc app c hw).unlinked = fillHwDesc app c hw.unlinked := by
  cases cfg <;> cases app <;> rfl

/-- The flags do not depend on the links. -/
theorem flagged_unlinked (hw : XilinxDmaDescHw) (flag : BitVec 32) :
    (hw.flagged flag).unlinked = hw.unlinked.flagged flag := rfl

/-- The flags of the `i`-th of `n` segments. -/
def placeFlags (direction : DmaTransferDirection) (n i : Nat) : BitVec 32 :=
  (if direction = .memToDev ∧ i = 0 then xilinxDmaBdSop else 0) |||
    (if direction = .memToDev ∧ i + 1 = n then xilinxDmaBdEop else 0)

/-- The words that a builder makes of a clean pool, links apart. -/
def newWords (app : Option AppWords) (direction : DmaTransferDirection)
    (chunks : List (Chunk cfg)) : List XilinxDmaDescHw :=
  chunks.mapIdx fun i c =>
    (fillHwDesc app c zeroDescHw).flagged (placeFlags direction chunks.length i)

/-- The words of a descriptor, links apart, in the order of its segments. -/
def XilinxDmaTxDescriptor.words (d : XilinxDmaTxDescriptor cfg) (s : XilinxDmaChan cfg) :
    List XilinxDmaDescHw :=
  d.segments.map fun p => (s.mem p).hw.unlinked

/-- The flags of a segment are those of its place. -/
theorem flags_getElem {d : XilinxDmaTxDescriptor cfg} (hnodup : d.segments.Nodup) {i : Nat}
    (hi : i < d.segments.length) :
    d.flags d.segments[i] = placeFlags d.direction d.segments.length i := by
  have hfirst : d.segments[i] = d.firstSegment ↔ i = 0 := by
    rw [XilinxDmaTxDescriptor.firstSegment, List.head_eq_getElem, hnodup.getElem_inj_iff]
  have hlast : d.segments[i] = d.lastSegment ↔ i + 1 = d.segments.length := by
    rw [XilinxDmaTxDescriptor.lastSegment, List.getLast_eq_getElem, hnodup.getElem_inj_iff]
    omega
  simp only [XilinxDmaTxDescriptor.flags, placeFlags, hfirst, hlast]

/-- Segments that were filled from clean ones and then flagged have the new words. -/
theorem words_eq_newWords {d : XilinxDmaTxDescriptor cfg} {s : XilinxDmaChan cfg}
    {app : Option AppWords} {chunks : List (Chunk cfg)} (hnodup : d.segments.Nodup)
    (h : List.Forall₂ (fun p c =>
      (s.mem p).hw.unlinked = (fillHwDesc app c zeroDescHw).flagged (d.flags p))
      d.segments chunks) :
    d.words s = newWords app d.direction chunks := by
  have hlen := h.length_eq
  apply List.ext_getElem
  · simp [XilinxDmaTxDescriptor.words, newWords, hlen]
  · intro i hi hi'
    have hi : i < d.segments.length := by simpa [XilinxDmaTxDescriptor.words] using hi
    have hword := (List.forall₂_iff_get.mp h).2 i hi (hlen ▸ hi)
    simp only [List.get_eq_getElem] at hword
    simp only [XilinxDmaTxDescriptor.words, newWords, List.getElem_map, List.getElem_mapIdx]
    have hflags : d.flags d.segments[i] = placeFlags d.direction chunks.length i := by
      rw [← hlen]
      exact flags_getElem hnodup hi
    rw [hword, hflags]

/-- **A builder that runs through** makes the new words of a clean pool. -/
theorem BuiltWords.words_eq {chunks : List (Chunk cfg)} {b : TxBuild} {s s' : XilinxDmaChan cfg}
    {d : XilinxDmaTxDescriptor cfg} (h : BuiltWords chunks b s s' d) (hwf : s.FreeSegListWf)
    (hclean : s.PoolClean) : d.words s' = newWords b.app b.direction chunks := by
  have hnodup : d.segments.Nodup := by
    rw [h.segments]
    exact hwf.sublist (List.take_sublist _ _)
  have hfree : ∀ p ∈ d.segments, (s.mem p).hw.Clean := by
    intro p hp
    rw [h.segments] at hp
    exact hclean p (List.mem_of_mem_take hp)
  rw [← h.direction]
  apply words_eq_newWords hnodup
  refine ((List.forall₂_and_left _ _).mpr ⟨hfree, h.words⟩).imp ?_
  rintro p c ⟨hp, hword⟩
  rw [hword, flagged_unlinked, fillHwDesc_unlinked, unlinked_of_clean hp]

/-! ## A builder that is interrupted -/

namespace VxdmaSys

/-- The calls in flight hold different segments. -/
theorem OwnedOnce.call_apart {s : VxdmaSys cfg} (hs : OwnedOnce s) {i : Nat} {c e : Call cfg}
    (hc : s.calls[i]? = some c) (he : e ∈ s.calls.eraseIdx i) {p : SegPtr} (hp : p ∈ c.segs) :
    p ∉ e.segs := by
  have hcall : (↑(s.calls.flatMap Call.segs) : Multiset SegPtr) =
      ↑c.segs + ↑((s.calls.eraseIdx i).flatMap Call.segs) := coe_flatMap_eraseIdx Call.segs hc
  have hle : (↑c.segs : Multiset SegPtr) + ↑((s.calls.eraseIdx i).flatMap Call.segs) ≤
      s.owned := by
    rw [← hcall]
    exact Multiset.le_add_left _ _
  have hnot := hs.disjoint hle (Multiset.mem_coe.mpr hp)
  intro hpe
  exact hnot (Multiset.mem_coe.mpr (List.mem_flatMap.mpr ⟨e, he, hpe⟩))

/-- What a call in flight holds is neither free nor active, and comes from an allocated pool. -/
theorem OwnedOnce.call {s : VxdmaSys cfg} (hs : OwnedOnce s) {e : Call cfg} (he : e ∈ s.calls)
    {p : SegPtr} (hp : p ∈ e.segs) :
    p ∉ s.chan.freeSegList ∧ p ∉ segsOf s.chan.activeList ∧ p.pool < s.chan.pools := by
  have hmem : p ∈ (↑(s.calls.flatMap Call.segs) : Multiset SegPtr) :=
    Multiset.mem_coe.mpr (List.mem_flatMap.mpr ⟨e, he, hp⟩)
  have hle : (↑(s.calls.flatMap Call.segs) : Multiset SegPtr) + (↑s.chan.freeSegList +
      ↑(segsOf s.chan.activeList)) ≤ s.owned := by
    refine Multiset.le_iff_exists_add.mpr ⟨↑(segsOf s.chan.pendingList) +
      ↑(segsOf s.chan.doneList) + ↑(segsOf s.prepared) + ↑(segsOf s.held), ?_⟩
    simp only [owned, XilinxDmaChan.owned]
    abel
  have hnot := hs.disjoint hle hmem
  simp only [Multiset.mem_add, Multiset.mem_coe, not_or] at hnot
  refine ⟨hnot.1, hnot.2, hs.allocated p ?_⟩
  exact Multiset.mem_of_le (Multiset.le_add_left _ _) hmem

/-- A call in flight after an action: one that the action did not run, one that it made, or what
the call that it ran goes on as. -/
theorem sectionStep_calls {s s' : VxdmaSys cfg} {a : Act cfg} {e : Call cfg}
    (h : s.sectionStep a = some s') (he : e ∈ s'.calls) :
    (e ∈ s.calls ∧ ∀ i env, a = .run i env → e ∈ s.calls.eraseIdx i) ∨ a.Makes e ∨
      ∃ i env c, a = .run i env ∧ s.calls[i]? = some c ∧
        Section env s.chan c s'.chan (.goesOn e) := by
  rcases sectionStep_mem_calls h he with hold | hrest
  · by_cases ha : ∃ i env, a = .run i env
    · obtain ⟨i, env, rfl⟩ := ha
      obtain ⟨c, hc, hsection, rfl⟩ := sectionStep_run h
      rcases List.mem_append.mp he with hnew | hkept
      · rw [After.mem_calls.mp hnew] at hsection
        exact Or.inr (Or.inr ⟨i, env, c, rfl, hc, hsection⟩)
      · refine Or.inl ⟨hold, fun j env' ha => ?_⟩
        cases ha
        exact hkept
    · refine Or.inl ⟨hold, fun i env hrun => ?_⟩
      exact absurd ⟨i, env, hrun⟩ ha
  · exact Or.inr hrest

/-- What a call holds that an action does not run keeps its words, up to the link. -/
theorem sectionStep_bystander {s s' : VxdmaSys cfg} {a : Act cfg} (hs : OwnedOnce s)
    (h : s.sectionStep a = some s') {e : Call cfg} (he : e ∈ s.calls) (he' : e ∈ s'.calls)
    (hother : ∀ i env, a = .run i env → e ∈ s.calls.eraseIdx i) {p : SegPtr} (hp : p ∈ e.segs) :
    (s'.chan.mem p).hw.unlinked = (s.chan.mem p).hw.unlinked := by
  obtain ⟨hfree, hactive, hpool⟩ := hs.call he hp
  cases sectionStep_write h p with
  | kept hsame => rw [hsame]
  | fresh segP ha hnew => omega
  | filled i env c cs b ha hc hhead =>
    rw [hhead] at hfree
    exact absurd List.mem_cons_self hfree
  | flagged i env b d ha hc hb => exact absurd hp (hs.call_apart hc (hother i env ha) hb)
  | linked i env d t ha hc ht hlast hlink =>
    rw [hlink]
    rfl
  | device status app ha hmem => exact absurd hmem hactive
  | cleaned hfree' => exact absurd hfree' ((sectionStep_ownedOnce hs h).call he' hp).1

/-! ### Requests -/

/-- The prep calls made so far, with the number of the descriptor that each of them allocated. -/
def requests (g : List (Nat × Act cfg)) (s : VxdmaSys cfg) (a : Act cfg) (_ : VxdmaSys cfg) :
    List (Nat × Act cfg) :=
  match a.entry s.chan with
  | some (.build _ _) => g ++ [(s.chan.kzallocs, a)]
  | _ => g

/-- The requests are numbered, and the next number is free. -/
structure RequestsOnce (g : List (Nat × Act cfg)) (next : Nat) : Prop where
  nodup : (g.map Prod.fst).Nodup
  lt : ∀ r ∈ g, r.1 < next

/-- One number, one request. -/
theorem RequestsOnce.unique {g : List (Nat × Act cfg)} {next id : Nat} (h : RequestsOnce g next)
    {a a' : Act cfg} (ha : (id, a) ∈ g) (ha' : (id, a') ∈ g) : a = a' :=
  (Prod.mk.inj (List.inj_on_of_nodup_map h.nodup ha ha' rfl)).2

/-- An action enters a builder, which returns at once or allocates a descriptor, or it does not. -/
theorem sectionStep_entry {s s' : VxdmaSys cfg} {a : Act cfg} (h : s.sectionStep a = some s') :
    (∃ chunks b, a.entry s.chan = some (.build chunks b) ∧
      s' = { s with chan := kzallocDesc s.chan }.enter (.build chunks b)) ∨
    (∀ g, requests g s a s' = g) ∧ s.chan.kzallocs ≤ s'.chan.kzallocs ∧
      ∀ cs b, a.Makes (.build cs b) → s' = s := by
  have hle : s.chan.kzallocs ≤ s'.chan.kzallocs := by
    rcases sectionStep_names h with ⟨-, hk⟩ | ⟨-, hk⟩ <;> omega
  obtain ⟨-, hstep⟩ := sectionStep_inv h
  cases hstep with
  | prepBuild _ chunks b hentry => exact Or.inl ⟨chunks, b, hentry, rfl⟩
  | prepNull _ hentry =>
    refine Or.inr ⟨fun g => ?_, hle, fun _ _ _ => rfl⟩
    simp only [requests, hentry]
  | _ =>
    refine Or.inr ⟨fun g => rfl, hle, fun cs b hmakes => ?_⟩
    cases hmakes

/-- No request is noted under a name that was given before. -/
theorem sectionStep_requestsOnce {s s' : VxdmaSys cfg} {a : Act cfg} {g : List (Nat × Act cfg)}
    (hg : RequestsOnce g s.chan.kzallocs) (h : s.sectionStep a = some s') :
    RequestsOnce (requests g s a s') s'.chan.kzallocs := by
  rcases sectionStep_entry h with ⟨chunks, b, hentry, rfl⟩ | ⟨hsame, hle, -⟩
  · simp only [requests, hentry]
    have hnew : s.chan.kzallocs ∉ g.map Prod.fst := by
      intro hmem
      obtain ⟨r, hr, hid⟩ := List.mem_map.mp hmem
      have := hg.lt r hr
      omega
    refine ⟨?_, ?_⟩
    · rw [List.map_append]
      apply List.nodup_append.mpr
      refine ⟨hg.nodup, List.nodup_singleton _, ?_⟩
      rintro x hx y hy rfl
      rw [List.mem_singleton.mp hy] at hx
      exact hnew hx
    · intro r hr
      simp only [enter, kzallocDesc]
      rcases List.mem_append.mp hr with hr | hr
      · have := hg.lt r hr
        omega
      · rw [List.mem_singleton.mp hr]
        exact Nat.lt_succ_self _
  · rw [hsame g]
    refine ⟨hg.nodup, fun r hr => ?_⟩
    have := hg.lt r hr
    omega

/-- A builder in flight has filled its segments with the first of the pieces that its caller asked
for, and has the others before it. -/
def FilledSoFar (g : List (Nat × Act cfg)) (s : XilinxDmaChan cfg) (cs : List (Chunk cfg))
    (b : TxBuild) : Prop :=
  ∃ a chunks b₀ t filled, (b.id, a) ∈ g ∧ a.entry t = some (.build chunks b₀) ∧
    b = { b₀ with segments := b.segments } ∧ chunks = filled ++ cs ∧
    List.Forall₂ (fun p c => (s.mem p).hw.unlinked = fillHwDesc b.app c zeroDescHw)
      b.segments filled

/-- Every builder in flight has done its part. -/
def AllFilledSoFar (s : VxdmaSys cfg) (g : List (Nat × Act cfg)) : Prop :=
  ∀ cs b, Call.build cs b ∈ s.calls → FilledSoFar g s.chan cs b

/-- What others do leaves a builder where it is. -/
theorem FilledSoFar.mono {g g' : List (Nat × Act cfg)} {s s' : XilinxDmaChan cfg}
    {cs : List (Chunk cfg)} {b : TxBuild} (h : FilledSoFar g s cs b) (hg : g ⊆ g')
    (hwords : ∀ p ∈ b.segments, (s'.mem p).hw.unlinked = (s.mem p).hw.unlinked) :
    FilledSoFar g' s' cs b := by
  obtain ⟨a, chunks, b₀, t, filled, hreq, hentry, hb, hsplit, hfilled⟩ := h
  refine ⟨a, chunks, b₀, t, filled, hg hreq, hentry, hb, hsplit, ?_⟩
  refine ((List.forall₂_and_left _ _).mpr ⟨hwords, hfilled⟩).imp ?_
  rintro p c ⟨hsame, hword⟩
  rw [hsame, hword]

/-- Requests are only added. -/
theorem subset_requests (g : List (Nat × Act cfg)) (s s' : VxdmaSys cfg) (a : Act cfg) :
    g ⊆ requests g s a s' := by
  unfold requests
  split
  · exact List.subset_append_left _ _
  · exact List.Subset.refl _

/-- One more round: the segment from the head of a clean pool has the words of its piece. -/
theorem FilledSoFar.round {g : List (Nat × Act cfg)} {s : XilinxDmaChan cfg} {c : Chunk cfg}
    {cs : List (Chunk cfg)} {b : TxBuild} (h : FilledSoFar g s (c :: cs) b) {p : SegPtr}
    (hclean : (s.mem p).hw.Clean) (hp : p ∉ b.segments) (ps : List SegPtr) :
    FilledSoFar g
      { s with
        freeSegList := ps
        mem := Function.update s.mem p { s.mem p with hw := fillHwDesc b.app c (s.mem p).hw } }
      cs { b with segments := b.segments ++ [p] } := by
  obtain ⟨a, chunks, b₀, t, filled, hreq, hentry, hb, hsplit, hfilled⟩ := h
  refine ⟨a, chunks, b₀, t, filled ++ [c], hreq, hentry, ?_, by simp [hsplit], ?_⟩
  · rw [hb]
  · apply List.rel_append _ (List.Forall₂.cons _ List.Forall₂.nil)
    · have hne : ∀ q ∈ b.segments, q ≠ p := by
        rintro q hq rfl
        exact hp hq
      refine ((List.forall₂_and_left _ _).mpr ⟨hne, hfilled⟩).imp ?_
      rintro q c' ⟨hq, hword⟩
      simp only [Function.update_of_ne hq]
      exact hword
    · simp only [Function.update_self]
      rw [fillHwDesc_unlinked, unlinked_of_clean hclean]

/-- **One action keeps what the builders have done.** -/
theorem sectionStep_filledSoFar {s s' : VxdmaSys cfg} {a : Act cfg} {g : List (Nat × Act cfg)}
    (hs : OwnedOnce s) (hclean : s.chan.PoolClean) (hfilled : s.AllFilledSoFar g)
    (h : s.sectionStep a = some s') : s'.AllFilledSoFar (requests g s a s') := by
  intro cs b hb
  rcases sectionStep_calls h hb with ⟨hold, hother⟩ | hmakes | ⟨i, env, c, rfl, hc, hsection⟩
  · refine (hfilled cs b hold).mono (subset_requests g s s' a) fun p hp => ?_
    exact sectionStep_bystander hs h hold hb hother hp
  · rcases sectionStep_entry h with ⟨chunks, b₀, hentry, rfl⟩ | ⟨hsame, -, hnull⟩
    · rcases List.mem_cons.mp hb with hnew | hold
      · -- the builder that has just been entered
        obtain ⟨rfl, rfl⟩ := Call.build.inj hnew
        obtain ⟨hsegs, hid⟩ := Act.entry_fresh hentry
        refine ⟨a, cs, b, s.chan, [], ?_, hentry, rfl, rfl, ?_⟩
        · simp only [requests, hentry, hid]
          exact List.mem_append_right _ (List.mem_singleton_self _)
        · rw [hsegs]
          exact List.Forall₂.nil
      · exact (hfilled cs b hold).mono (subset_requests g s _ a) fun p _ => rfl
    · rw [hsame g, hnull cs b hmakes]
      rw [hnull cs b hmakes] at hb
      exact hfilled cs b hb
  · generalize hchan : s'.chan = t at hsection ⊢
    cases hsection with
    | buildRound c cs b p ps hfree =>
      have hcall := List.mem_of_getElem? hc
      have hpool : p ∈ s.chan.freeSegList := by
        rw [hfree]
        exact List.mem_cons_self
      have hp : p ∉ b.segments := fun hmem => (hs.call hcall hmem).1 hpool
      exact (hfilled _ _ hcall).round (hclean p hpool) hp ps

/-- The words that a prep asks for. -/
def Act.newWords : Act cfg → List XilinxDmaDescHw
  | .prepSlaveSg args =>
    PetalinuxDriver.newWords (if args.direction = .memToDev then args.context else none)
      args.direction (sgChunks args.sgl)
  | .prepDmaCyclic args =>
    PetalinuxDriver.newWords none args.direction
      (cyclicChunks args.bufAddr ((args.bufLen.toNat / args.periodLen.toNat) % 2 ^ 32)
        args.periodLen.toNat)
  | _ => []

/-- The words that a prep asks for are those of its rounds. -/
theorem Act.newWords_of_entry {a : Act cfg} {s : XilinxDmaChan cfg} {chunks : List (Chunk cfg)}
    {b : TxBuild} (h : a.entry s = some (.build chunks b)) :
    a.newWords = PetalinuxDriver.newWords b.app b.direction chunks := by
  cases a with
  | prepSlaveSg args =>
    simp only [Act.entry, prepSlaveSgEntry, Option.some.injEq] at h
    split at h
    · cases h
    · split at h
      · cases h
      · cases h
        rfl
  | prepDmaCyclic args =>
    simp only [Act.entry, prepDmaCyclicEntry, Option.some.injEq] at h
    split at h
    · cases h
    · split at h
      · cases h
      · split at h
        · cases h
        · cases h
          rfl
  | _ => cases h

/-- The call with number `i` is a builder that returns its descriptor in this section. -/
def Returns (s : VxdmaSys cfg) (i : Nat) (env : CallEnv) (s' : VxdmaSys cfg)
    (d : XilinxDmaTxDescriptor cfg) : Prop :=
  s.sectionStep (.run i env) = some s' ∧
    ∃ b, s.calls[i]? = some (.build [] b) ∧ (Call.run env s.chan (.build [] b)).2 = .prepared d

/-- A builder that returns has made the words that its caller asked for. -/
theorem FilledSoFar.returns {g : List (Nat × Act cfg)} {s s' : VxdmaSys cfg} {i : Nat}
    {env : CallEnv} {d : XilinxDmaTxDescriptor cfg} (hs : OwnedOnce s)
    (hfilled : s.AllFilledSoFar g) (h : s.Returns i env s' d) :
    ∃ a, (d.id, a) ∈ g ∧ d.words s'.chan = a.newWords := by
  obtain ⟨hstep, b, hc, hd⟩ := h
  have hcall := List.mem_of_getElem? hc
  obtain ⟨a, chunks, b₀, t, filled, hreq, hentry, hb, hsplit, hwords⟩ := hfilled [] b hcall
  obtain ⟨c, hc', hsection, rfl⟩ := sectionStep_run hstep
  rw [hc] at hc'
  cases hc'
  have hfin : finishBuild b s.chan = ((Call.run env s.chan (.build [] b)).1, .desc d) := by
    simp only [Call.run] at hd ⊢
    split at hd
    · rename_i s₁ d₁ hfin
      cases hd
      exact Prod.ext (congrArg Prod.fst hfin) (congrArg Prod.snd hfin)
    · cases hd
    · cases hd
  have hsegs : d.segments = b.segments := (finishBuild_covers hfin).1
  have hdir : d.direction = b.direction := (finishBuild_control hfin d.firstSegment).1
  have hid : d.id = b.id := by
    rcases finishBuild_cases b s.chan with ⟨-, hwild⟩ | ⟨d', mem, -, hbuilt, -, hdesc⟩
    · rw [hwild] at hfin
      cases (Prod.mk.inj hfin).2
    · rw [hdesc] at hfin
      cases (Prod.mk.inj hfin).2
      exact hbuilt.id
  have hnodup : d.segments.Nodup := by
    rw [hsegs]
    exact (List.nodup_append.mp (hs.free_call hc)).2.1
  rw [List.append_nil] at hsplit
  subst hsplit
  refine ⟨a, by rw [hid]; exact hreq, ?_⟩
  have hmade : List.Forall₂ (fun p c => ((Call.run env s.chan (.build [] b)).1.mem p).hw.unlinked =
      (fillHwDesc b.app c zeroDescHw).flagged (d.flags p)) d.segments chunks := by
    rw [hsegs]
    refine hwords.imp fun p c hword => ?_
    rw [finishBuild_mem hfin p]
    simp only [flagged_unlinked, hword]
  rw [words_eq_newWords hnodup hmade, hdir, Act.newWords_of_entry hentry, hb]

/-- What holds of every history. -/
structure RecyclingInv (s : VxdmaSys cfg) (g : List (Nat × Act cfg)) : Prop where
  once : OwnedOnce s
  clean : s.chan.PoolClean
  requests : RequestsOnce g s.chan.kzallocs
  filled : s.AllFilledSoFar g

/-- Every run from the probe keeps the invariant. -/
theorem recyclingInv_of_reachable {hasSg : Bool} {ctrlOffset : Nat} {dmacr : BitVec 32}
    {s : VxdmaSys cfg} {g : List (Nat × Act cfg)}
    (h : Reachable (withGhost sectionStep VxdmaSys.requests) always
      (probed hasSg ctrlOffset dmacr, []) (s, g)) : RecyclingInv s g := by
  refine h.ghost_invariant ⟨probed_ownedOnce _ _ _, ?_, ⟨List.nodup_nil, ?_⟩, ?_⟩ ?_
  · intro p hp
    cases hp
  · intro r hr
    cases hr
  · intro cs b hb
    cases hb
  · intro s g a s' hinv _ hstep
    exact ⟨sectionStep_ownedOnce hinv.once hstep,
      sectionStep_poolClean hinv.once hinv.clean hstep,
      sectionStep_requestsOnce hinv.requests hstep,
      sectionStep_filledSoFar hinv.once hinv.clean hinv.filled hstep⟩

end VxdmaSys

/-! ## Two histories -/

open VxdmaSys in
/-- **Recycled segments carry nothing over.** After any two histories, of two channels or of one,
the free segments are zero but for their links, and the descriptors made for the same arguments
have the same words position by position, links apart. This holds of builders that run through,
and of builders that were interrupted by anything else. -/
theorem same_words_of_histories {hasSg₁ hasSg₂ : Bool} {ctrlOffset₁ ctrlOffset₂ : Nat}
    {dmacr₁ dmacr₂ : BitVec 32} {s₁ s₂ : VxdmaSys cfg} {g₁ g₂ : List (Nat × Act cfg)}
    (h₁ : Reachable (withGhost sectionStep requests) always
      (probed hasSg₁ ctrlOffset₁ dmacr₁, []) (s₁, g₁))
    (h₂ : Reachable (withGhost sectionStep requests) always
      (probed hasSg₂ ctrlOffset₂ dmacr₂, []) (s₂, g₂)) :
    (∀ p ∈ s₁.chan.freeSegList, (s₁.chan.mem p).hw.unlinked = zeroDescHw) ∧
    (∀ (args : PrepSlaveSgArgs cfg) t₁ d₁ t₂ d₂,
      xilinxDmaPrepSlaveSg args s₁.chan = (t₁, .desc d₁) →
      xilinxDmaPrepSlaveSg args s₂.chan = (t₂, .desc d₂) → d₁.words t₁ = d₂.words t₂) ∧
    (∀ (args : PrepDmaCyclicArgs cfg) t₁ d₁ t₂ d₂,
      xilinxDmaPrepDmaCyclic args s₁.chan = (t₁, .desc d₁) →
      xilinxDmaPrepDmaCyclic args s₂.chan = (t₂, .desc d₂) → d₁.words t₁ = d₂.words t₂) ∧
    ∀ i₁ env₁ t₁ d₁ i₂ env₂ t₂ d₂ a, s₁.Returns i₁ env₁ t₁ d₁ → s₂.Returns i₂ env₂ t₂ d₂ →
      (d₁.id, a) ∈ g₁ → (d₂.id, a) ∈ g₂ → d₁.words t₁.chan = d₂.words t₂.chan := by
  have hinv₁ := recyclingInv_of_reachable h₁
  have hinv₂ := recyclingInv_of_reachable h₂
  have hwf₁ := hinv₁.once.freeSegListWf
  have hwf₂ := hinv₂.once.freeSegListWf
  refine ⟨?_, ?_, ?_, ?_⟩
  · intro p hp
    exact unlinked_of_clean (hinv₁.clean p hp)
  · intro args t₁ d₁ t₂ d₂ hp₁ hp₂
    rw [(prepSlaveSg_words hwf₁ hp₁).words_eq hwf₁ hinv₁.clean,
      (prepSlaveSg_words hwf₂ hp₂).words_eq hwf₂ hinv₂.clean]
  · intro args t₁ d₁ t₂ d₂ hp₁ hp₂
    rw [(prepDmaCyclic_words hwf₁ hp₁).words_eq hwf₁ hinv₁.clean,
      (prepDmaCyclic_words hwf₂ hp₂).words_eq hwf₂ hinv₂.clean]
  · intro i₁ env₁ t₁ d₁ i₂ env₂ t₂ d₂ a hr₁ hr₂ ha₁ ha₂
    obtain ⟨a₁, hreq₁, hwords₁⟩ := FilledSoFar.returns hinv₁.once hinv₁.filled hr₁
    obtain ⟨a₂, hreq₂, hwords₂⟩ := FilledSoFar.returns hinv₂.once hinv₂.filled hr₂
    rw [hwords₁, hwords₂, hinv₁.requests.unique hreq₁ ha₁, hinv₂.requests.unique hreq₂ ha₂]

/-- A transfer of one byte. -/
def oneByte : PrepSlaveSgArgs .addr32 := ⟨[⟨0x1000, 1⟩], .memToDev, none, true⟩

/-- A channel whose pool has turned, and a new one. -/
theorem same_words_turnedPool :
    ∃ s₁ g₁ s₂ g₂ t₁ d₁ t₂ d₂,
      exec (withGhost VxdmaSys.sectionStep VxdmaSys.requests) (VxdmaSys.probed true 0 0, [])
        turnedPool = some (s₁, g₁) ∧
      exec (withGhost VxdmaSys.sectionStep VxdmaSys.requests) (VxdmaSys.probed true 0 0, [])
        [.allocChanResources (some 0)] = some (s₂, g₂) ∧
      s₁.chan.freeSegList.head? = some ⟨0, 2⟩ ∧ s₂.chan.freeSegList.head? = some ⟨0, 0⟩ ∧
      xilinxDmaPrepSlaveSg oneByte s₁.chan = (t₁, .desc d₁) ∧
      xilinxDmaPrepSlaveSg oneByte s₂.chan = (t₂, .desc d₂) ∧ d₁.words t₁ = d₂.words t₂ := by
  have hexec₁ : (exec (withGhost VxdmaSys.sectionStep VxdmaSys.requests)
      (VxdmaSys.probed true 0 0, []) turnedPool).map (fun sg =>
        (sg.1.chan.freeSegList.head?, sg.1.chan.freeSegList.length)) =
      some (some ⟨0, 2⟩, 255) := by
    decide +kernel
  have hexec₂ : (exec (withGhost VxdmaSys.sectionStep VxdmaSys.requests)
      (VxdmaSys.probed true 0 0, []) [.allocChanResources (some (0 : DmaAddr .addr32))]).map
        (fun sg => (sg.1.chan.freeSegList.head?, sg.1.chan.freeSegList.length)) =
      some (some ⟨0, 0⟩, 255) := by
    decide +kernel
  obtain ⟨⟨s₁, g₁⟩, hs₁, hfacts₁⟩ := Option.map_eq_some_iff.mp hexec₁
  obtain ⟨⟨s₂, g₂⟩, hs₂, hfacts₂⟩ := Option.map_eq_some_iff.mp hexec₂
  obtain ⟨hhead₁, hlen₁⟩ := Prod.mk.inj hfacts₁
  obtain ⟨hhead₂, hlen₂⟩ := Prod.mk.inj hfacts₂
  have hneeded : segmentsNeeded oneByte.sgl = 1 := by decide +kernel
  simp only at hhead₁ hlen₁ hhead₂ hlen₂
  obtain ⟨t₁, d₁, hp₁⟩ : ∃ t d, xilinxDmaPrepSlaveSg oneByte s₁.chan = (t, .desc d) :=
    prepSlaveSg_returns rfl rfl (by omega) (by omega)
  obtain ⟨t₂, d₂, hp₂⟩ : ∃ t d, xilinxDmaPrepSlaveSg oneByte s₂.chan = (t, .desc d) :=
    prepSlaveSg_returns rfl rfl (by omega) (by omega)
  have hrun₁ := Reachable.of_exec (Reachable.execOk_of_forall fun _ _ _ => trivial) hs₁
  have hrun₂ := Reachable.of_exec (Reachable.execOk_of_forall fun _ _ _ => trivial) hs₂
  have hsame := (same_words_of_histories hrun₁ hrun₂).2.1 oneByte t₁ d₁ t₂ d₂ hp₁ hp₂
  exact ⟨s₁, g₁, s₂, g₂, t₁, d₁, t₂, d₂, hs₁, hs₂, hhead₁, hhead₂, hp₁, hp₂, hsame⟩

end PetalinuxDriver
