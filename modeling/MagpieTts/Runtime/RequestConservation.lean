import MagpieTts.Library.Run
import MagpieTts.Runtime.RequestCalls

/-!
# Conservation of audio in a streaming request

What holds behind every call on a request, in every run of calls: the occupied frames are those of
the queue and the leases, every accepted chunk is in one place, audio is leased in the order of its
publication, and the accepted chunks follow the grammar of a stream.

## Main definitions

* `RequestHistory.Conservation`: the property of a history.
* `RequestHistory.CallKeeps`: the property of a call.
* `RequestHistory.Invariant`: the invariant that carries both through a run.

## Main results

* `RequestHistory.Invariant.move`: every move keeps the invariant.
* `RequestHistory.stepsMeet_callKeeps_iff`: the runs of which every call keeps the property.
-/

namespace MagpieTts.Runtime

open MagpieTts.Library

namespace RequestHistory

/-- The accepted chunk number `k` continues the stream, in the 64-bit arithmetic of its fields. -/
structure ContinuesStream (accepted : List AudioChunk) (k : ℕ) (chunk : AudioChunk) : Prop where
  sequence_eq : chunk.sequence = k
  firstSampleIndex_eq : chunk.firstSampleIndex =
    ((accepted.take k).map fun earlier => earlier.samples.sampleCount).sum % 18446744073709551616
  sampleCount_eq : chunk.samples.sampleCount = chunk.codecFrameCount * kCodecSamplesPerFrame
  first_frames : k = 0 → chunk.codecFrameCount = 4
  steady_frames : 0 < k → chunk.final = false → chunk.codecFrameCount = 8
  tail_frames : chunk.codecFrameCount ≤ 8
  final_last : chunk.final = true → k + 1 = accepted.length

/-- What holds of the history behind every call. -/
structure Conservation (h : RequestHistory) : Prop where
  occupied_eq : h.request.occupiedCodecFrames =
    (h.request.availableAudio.map AudioChunk.codecFrameCount).sum +
      (h.request.liveLeases.map fun lease => lease.chunk.codecFrameCount).sum
  occupied_le : h.request.occupiedCodecFrames ≤ h.request.pcmRingCapacityFrames
  partition : h.accepted.Perm (h.request.availableAudio ++
    h.request.liveLeases.map StoredLease.chunk ++
    h.released ++ h.discarded)
  nodup : h.accepted.Nodup
  returned_order : ∃ leases : List StoredLease, h.returned = leases.map StoredLease.view ∧
    (leases.map StoredLease.chunk).Sublist h.accepted
  stream : ∀ k chunk, h.accepted[k]? = some chunk → ContinuesStream h.accepted k chunk

/-- A final chunk was accepted, a cancellation was accepted, or the request has failed. -/
def Closed (h : RequestHistory) : Prop :=
  (∃ chunk ∈ h.accepted, chunk.final = true) ∨ h.request.cancellationRequested = true ∨
    h.request.state = .cancelled ∨ h.request.state = .failed

/-- What a call keeps. -/
structure CallKeeps (h : RequestHistory) (c : RequestCall) : Prop where
  conservation : (h.step c).Conservation
  closed : h.Closed → (h.step c).Closed ∧ (h.step c).accepted = h.accepted
  closed_of_cancellation : (h.call c).1 = .cancellation true → (h.step c).Closed
  closed_of_failure : ∀ status stage message, c = .fail status stage message →
    (h.call c).1 = .done → (h.step c).Closed
  lease_kept : ∀ lease ∈ h.request.liveLeases, lease ∉ (h.step c).request.liveLeases →
    c = .releaseAudio lease.leaseId
  rejected : ∀ chunk, c = .publish chunk → (h.call c).1 ≠ .published true →
    (h.step c).request = h.request

/-- The invariant of a run that publishes nothing at the last revision. -/
structure Invariant (h : RequestHistory) : Prop where
  accounted : h.request.Accounted
  conserved : h.ledger.Conserved
  returned : ∃ leases : List StoredLease,
    leases.Sublist h.taken ∧ h.returned = leases.map StoredLease.view
  leases : h.request.liveLeases.Sublist h.taken
  leaseIds : (h.taken.map StoredLease.leaseId).Pairwise (· < ·)
  leaseIds_lt : ∀ lease ∈ h.taken, lease.leaseId < h.leaseIds.next
  nextSequence_eq : h.request.nextSequence = h.accepted.length
  nextSampleIndex_eq : h.request.nextSampleIndex =
    (h.accepted.map fun chunk => chunk.samples.sampleCount).sum % 18446744073709551616
  stream : ∀ k chunk, h.accepted[k]? = some chunk → ContinuesStream h.accepted k chunk
  running : h.request.state = .running → ∀ chunk ∈ h.accepted, chunk.final = false
  revision_gt : h.accepted.length < h.request.revision
  revision_le : h.request.revision ≤ maximumUint64

variable {h h' : RequestHistory} {c : RequestCall}

theorem load_ledger (h : RequestHistory) :
    h.ledger.load AudioChunk.codecFrameCount = h.request.queueFrames + h.request.leaseFrames := by
  simp only [Ledger.load, ledger, List.map_map, StreamingRequestState.queueFrames,
    StreamingRequestState.leaseFrames, Function.comp_def]

/-! ### The moves keep the invariant -/

namespace Invariant

variable (hinv : h.Invariant)

include hinv

theorem accept {chunk : AudioChunk} (hvalid : h.request.ValidChunk chunk)
    (hrevision : h.request.revision ≠ maximumUint64) :
    Invariant { h with
      request := (h.request.acceptChunk chunk).bumped, accepted := h.accepted ++ [chunk] } := by
  have hfits := hvalid.fits
  rw [hinv.accounted.subUint32_eq] at hfits
  have hocc := hinv.accounted.occupied_le
  have hcap := hinv.accounted.capacity_le
  have hgt := hinv.revision_gt
  have hle := hinv.revision_le
  have hsequence : addUint64 h.request.nextSequence 1 = h.accepted.length + 1 := by
    rw [hinv.nextSequence_eq, addUint64_eq]
    omega
  have hoccupied : addUint32 h.request.occupiedCodecFrames chunk.codecFrameCount =
      h.request.occupiedCodecFrames + chunk.codecFrameCount := addUint32_eq (by omega)
  have hnonfinal := hinv.running hvalid.running
  have hbumped : (h.request.acceptChunk chunk).bumped =
      { h.request.acceptChunk chunk with revision := h.request.revision + 1 } :=
    if_neg hrevision
  rw [hbumped]
  refine
    { accounted := ⟨?_, ?_, hcap⟩
      conserved := hinv.conserved.accept chunk
      returned := hinv.returned
      leases := hinv.leases
      leaseIds := hinv.leaseIds
      leaseIds_lt := hinv.leaseIds_lt
      nextSequence_eq := ?_
      nextSampleIndex_eq := ?_
      stream := ?_
      running := ?_
      revision_gt := ?_
      revision_le := ?_ }
  · have hload := Ledger.load_accept AudioChunk.codecFrameCount h.ledger chunk
    rw [load_ledger, ← hinv.accounted.occupied_eq] at hload
    change addUint32 _ _ = _
    rw [hoccupied, ← hload]
    exact load_ledger { h with
      request := h.request.acceptChunk chunk, accepted := h.accepted ++ [chunk] }
  · change addUint32 _ _ ≤ _
    rw [hoccupied]
    change _ ≤ h.request.pcmRingCapacityFrames
    omega
  · change addUint64 _ 1 = _
    rw [hsequence, List.length_append, List.length_singleton]
  · change addUint64 h.request.nextSampleIndex _ = _
    rw [hinv.nextSampleIndex_eq, addUint64_mod, List.map_append, List.sum_append]
    simp [addUint64]
  · intro k other hk
    rcases Nat.lt_trichotomy k h.accepted.length with hlt | rfl | hgt'
    · rw [List.getElem?_append_left hlt] at hk
      have hold := hinv.stream k other hk
      have hother := hnonfinal other (List.mem_of_getElem? hk)
      exact
        { hold with
          firstSampleIndex_eq := by
            rw [List.take_append_of_le_length hlt.le]
            exact hold.firstSampleIndex_eq
          final_last := fun hfinal => by rw [hother] at hfinal; cases hfinal }
    · rw [List.getElem?_concat_length, Option.some.injEq] at hk
      subst hk
      have hfirst := hvalid.first_eq
      rw [hinv.nextSequence_eq] at hfirst
      exact
        { sequence_eq := hvalid.sequence_eq.trans hinv.nextSequence_eq
          firstSampleIndex_eq := by
            rw [List.take_left]
            exact hvalid.firstSampleIndex_eq.trans hinv.nextSampleIndex_eq
          sampleCount_eq := hvalid.sampleCount_eq
          first_frames := fun hzero => hvalid.first_frames (by rw [hfirst, decide_eq_true hzero])
          steady_frames := fun hpos => hvalid.steady_frames
            (by rw [hfirst, decide_eq_false (Nat.ne_of_gt hpos)])
          tail_frames := hvalid.frames_le
          final_last := fun _ => by rw [List.length_append, List.length_singleton] }
    · rw [List.getElem?_eq_none (by rw [List.length_append, List.length_singleton]; omega)] at hk
      cases hk
  · intro hrunning other hmem
    change (if chunk.final then RequestLifecycleState.completed else h.request.state) = _
      at hrunning
    rcases List.mem_append.mp hmem with hold | hnew
    · exact hnonfinal other hold
    · rw [List.mem_singleton.mp hnew]
      by_contra hfinal
      rw [Bool.not_eq_false] at hfinal
      rw [hfinal] at hrunning
      cases hrunning
  · rw [List.length_append, List.length_singleton]
    change _ < h.request.revision + 1
    omega
  · change h.request.revision + 1 ≤ _
    omega

theorem draw {ids : LeaseIdSequence} (hids : h.leaseIds.next ≤ ids.next) :
    Invariant { h with leaseIds := ids } :=
  { hinv with
    leaseIds_lt := fun lease hmem => Nat.lt_of_lt_of_le (hinv.leaseIds_lt lease hmem) hids }

theorem discard {after : StreamingRequestState} (hemptied : Emptied h.request after) :
    Invariant { h with
      request := after, discarded := h.discarded ++ h.request.availableAudio } where
  accounted := by
    have hocc := hinv.accounted.occupied_eq
    have hle := hinv.accounted.occupied_le
    refine ⟨?_, ?_, ?_⟩
    · rw [hemptied.occupied_eq, StreamingRequestState.queueFrames,
        StreamingRequestState.leaseFrames, StreamingRequestState.leaseFrames,
        hemptied.availableAudio_eq, hemptied.liveLeases_eq, List.map_nil, List.sum_nil,
        Nat.zero_add]
    · rw [hemptied.occupied_eq, hemptied.capacity_eq]
      omega
    · rw [hemptied.capacity_eq]
      exact hinv.accounted.capacity_le
  conserved := by
    have := hinv.conserved.discard
    simpa only [Ledger.discard, ledger, hemptied.availableAudio_eq, hemptied.liveLeases_eq]
      using this
  returned := hinv.returned
  leases := by rw [hemptied.liveLeases_eq]; exact hinv.leases
  leaseIds := hinv.leaseIds
  leaseIds_lt := hinv.leaseIds_lt
  nextSequence_eq := hemptied.nextSequence_eq.trans hinv.nextSequence_eq
  nextSampleIndex_eq := hemptied.nextSampleIndex_eq.trans hinv.nextSampleIndex_eq
  stream := hinv.stream
  running := by
    intro hrunning
    refine hinv.running (not_not.mp fun hne => hne ?_)
    rw [← hemptied.state_of hne]
    exact hrunning
  revision_gt := Nat.lt_of_lt_of_le hinv.revision_gt hemptied.revision_le
  revision_le := hemptied.revision_max hinv.revision_le

/-- Only the queue, the leases and their frames change, together with the revision. -/
theorem of_bumped {request : StreamingRequestState} {ids : LeaseIdSequence}
    {taken : List StoredLease} {returned : List AudioLeaseView} {released : List AudioChunk}
    (haccounted : request.Accounted)
    (hconserved : ({ h with
      request := request
      leaseIds := ids
      taken := taken
      returned := returned
      released := released } : RequestHistory).ledger.Conserved)
    (hreturned : ∃ leases : List StoredLease, leases.Sublist taken ∧
      returned = leases.map StoredLease.view)
    (hleases : request.liveLeases.Sublist taken)
    (hleaseIds : (taken.map StoredLease.leaseId).Pairwise (· < ·))
    (hleaseIdsLt : ∀ lease ∈ taken, lease.leaseId < ids.next)
    (hsequence : request.nextSequence = h.request.nextSequence)
    (hsample : request.nextSampleIndex = h.request.nextSampleIndex)
    (hstate : request.state = h.request.state) (hrevision : request.revision = h.request.revision) :
    Invariant { h with
      request := request.bumped
      leaseIds := ids
      taken := taken
      returned := returned
      released := released } := by
  have hgt := hinv.revision_gt
  have hle := hinv.revision_le
  rw [StreamingRequestState.bumped]
  split_ifs with hmax
  · exact ⟨haccounted, hconserved, hreturned, hleases, hleaseIds, hleaseIdsLt,
      hsequence.trans hinv.nextSequence_eq, hsample.trans hinv.nextSampleIndex_eq, hinv.stream,
      fun hrunning => hinv.running (hstate ▸ hrunning), hrevision ▸ hgt, hrevision ▸ hle⟩
  · refine ⟨⟨haccounted.occupied_eq, haccounted.occupied_le, haccounted.capacity_le⟩, hconserved,
      hreturned, hleases, hleaseIds, hleaseIdsLt, hsequence.trans hinv.nextSequence_eq,
      hsample.trans hinv.nextSampleIndex_eq, hinv.stream,
      fun hrunning => hinv.running (hstate ▸ hrunning), ?_, ?_⟩
    · simp only
      omega
    · simp only
      omega

theorem take {chunk : AudioChunk} {rest : List AudioChunk} {views : List AudioLeaseView}
    (havailable : h.request.availableAudio = chunk :: rest)
    (hviews : views = [] ∨ views = [StoredLease.view ⟨h.leaseIds.next, chunk⟩]) :
    Invariant { h with
      request := (h.request.leased rest ⟨h.leaseIds.next, chunk⟩).bumped
      leaseIds := ⟨h.leaseIds.next + 1⟩
      taken := h.taken ++ [⟨h.leaseIds.next, chunk⟩]
      returned := h.returned ++ views } := by
  have hledger : ({ h with
      request := h.request.leased rest ⟨h.leaseIds.next, chunk⟩
      leaseIds := ⟨h.leaseIds.next + 1⟩
      taken := h.taken ++ [⟨h.leaseIds.next, chunk⟩]
      returned := h.returned ++ views } : RequestHistory).ledger =
      h.ledger.take h.leaseIds.next := by
    simp only [ledger, Ledger.take, havailable, StreamingRequestState.leased, List.map_append,
      List.map_cons, List.map_nil]
  refine hinv.of_bumped ⟨?_, hinv.accounted.occupied_le, hinv.accounted.capacity_le⟩ ?_ ?_ ?_ ?_ ?_
    rfl rfl rfl rfl
  · have hload := Ledger.load_take AudioChunk.codecFrameCount h.ledger h.leaseIds.next
    rw [← hledger, load_ledger, load_ledger, ← hinv.accounted.occupied_eq] at hload
    exact hload.symm
  · rw [hledger]
    exact hinv.conserved.take _
  · obtain ⟨leases, hsublist, hreturned⟩ := hinv.returned
    rcases hviews with rfl | rfl
    · exact ⟨leases, hsublist.trans (List.sublist_append_left _ _), by simp [hreturned]⟩
    · exact ⟨leases ++ [⟨h.leaseIds.next, chunk⟩], hsublist.append (List.Sublist.refl _),
        by simp [hreturned]⟩
  · exact hinv.leases.append (List.Sublist.refl _)
  · rw [List.map_append, List.pairwise_append]
    refine ⟨hinv.leaseIds, List.pairwise_singleton _ _, ?_⟩
    intro a ha b hb
    obtain ⟨lease, hmem, rfl⟩ := List.mem_map.mp ha
    rw [List.map_singleton, List.mem_singleton] at hb
    rw [hb]
    exact hinv.leaseIds_lt lease hmem
  · intro lease hmem
    rcases List.mem_append.mp hmem with hold | hnew
    · exact Nat.lt_succ_of_lt (hinv.leaseIds_lt lease hold)
    · rw [List.mem_singleton.mp hnew]
      exact Nat.lt_succ_self _

theorem release {found : StoredLease}
    (hfind : (h.request.liveLeases.find? fun lease => lease.leaseId = found.leaseId) = some found) :
    Invariant { h with
      request := (h.request.unleased found).bumped
      released := h.released ++ [found.chunk] } := by
  have hkey : (h.ledger.leased.find? fun lease => lease.1 = found.leaseId) =
      some (found.leaseId, found.chunk) := by
    simp only [ledger, List.find?_map, Function.comp_def, hfind, Option.map_some]
  have hledger : ({ h with
      request := h.request.unleased found
      released := h.released ++ [found.chunk] } : RequestHistory).ledger =
      h.ledger.release found.leaseId := by
    simp only [Ledger.release, hkey]
    simp only [ledger, StreamingRequestState.unleased, List.eraseP_map, Function.comp_def]
  have hload := Ledger.load_release AudioChunk.codecFrameCount hkey
  rw [← hledger, load_ledger, load_ledger, ← hinv.accounted.occupied_eq] at hload
  have hocc := hinv.accounted.occupied_le
  refine hinv.of_bumped ⟨?_, ?_, hinv.accounted.capacity_le⟩ ?_ hinv.returned ?_ hinv.leaseIds
    hinv.leaseIds_lt rfl rfl rfl rfl
  · change h.request.occupiedCodecFrames - found.chunk.codecFrameCount = _
    simp only at hload
    omega
  · change h.request.occupiedCodecFrames - found.chunk.codecFrameCount ≤
      h.request.pcmRingCapacityFrames
    omega
  · rw [hledger]
    exact hinv.conserved.release _
  · exact List.eraseP_sublist.trans hinv.leases

/-- Every move keeps the invariant. -/
theorem move (hmove : h.Move c h') : h'.Invariant := by
  cases hmove with
  | stay => exact hinv
  | draw ids hids => exact hinv.draw hids
  | accept chunk hcall hopen hvalid hrevision => exact hinv.accept hvalid hrevision
  | discard after hclears => exact hinv.discard hclears.emptied
  | take chunk rest views havailable hviews => exact hinv.take havailable (hviews.imp_left And.left)
  | release found hcall hfind => exact hinv.release hfind

theorem step (hrevision : ¬ h.PublishesAtLastRevision c) : (h.step c).Invariant :=
  hinv.move (move_step hinv.accounted
    (fun lease hmem => hinv.leaseIds_lt lease (hinv.leases.subset hmem)) hrevision)

/-- The invariant gives the conservation. -/
theorem conservation : h.Conservation where
  occupied_eq := hinv.accounted.occupied_eq
  occupied_le := hinv.accounted.occupied_le
  partition := by
    have := hinv.conserved.partition
    simpa only [ledger, List.map_map, Function.comp_def] using this
  nodup := by
    have hsequence : h.accepted.map AudioChunk.sequence = List.range h.accepted.length := by
      apply List.ext_getElem
      · rw [List.length_map, List.length_range]
      · intro k hk _
        rw [List.length_map] at hk
        rw [List.getElem_map, List.getElem_range]
        exact (hinv.stream k _ (List.getElem?_eq_getElem hk)).sequence_eq
    exact List.Nodup.of_map AudioChunk.sequence (hsequence ▸ List.nodup_range)
  returned_order := by
    obtain ⟨leases, hsublist, hreturned⟩ := hinv.returned
    obtain ⟨settled, haccepted, htaken⟩ := hinv.conserved.order
    refine ⟨leases, hreturned, (hsublist.map StoredLease.chunk).trans (htaken.trans ?_)⟩
    change settled.Sublist h.ledger.accepted
    rw [haccepted]
    exact List.sublist_append_left _ _
  stream := hinv.stream

end Invariant

/-- A fresh request meets the invariant. -/
theorem invariant_start {textTokenCount capacity : ℕ} {request : StreamingRequestState}
    (hcapacity : capacity ≤ maximumUint32)
    (h : StreamingRequestState.construct textTokenCount capacity = .ok request)
    (ids : LeaseIdSequence) : (start request ids).Invariant := by
  rw [StreamingRequestState.construct] at h
  split_ifs at h with hpositive hsteady
  rw [Except.ok.injEq] at h
  subst h
  exact
    { accounted := ⟨rfl, Nat.zero_le _, hcapacity⟩
      conserved := Ledger.conserved_empty
      returned := ⟨[], List.Sublist.refl _, rfl⟩
      leases := List.Sublist.refl _
      leaseIds := List.Pairwise.nil
      leaseIds_lt := fun _ hmem => absurd hmem List.not_mem_nil
      nextSequence_eq := rfl
      nextSampleIndex_eq := rfl
      stream := fun _ _ hk => by simp [start] at hk
      running := fun _ _ hmem => absurd hmem List.not_mem_nil
      revision_gt := Nat.zero_lt_one
      revision_le := by simp [start, maximumUint64] }

/-! ### What a call keeps -/

theorem bumped_state (s : StreamingRequestState) : s.bumped.state = s.state :=
  StreamingRequestState.bumped_induction (P := fun t => t.state = s.state) rfl rfl

theorem bumped_cancellationRequested (s : StreamingRequestState) :
    s.bumped.cancellationRequested = s.cancellationRequested :=
  StreamingRequestState.bumped_induction
    (P := fun t => t.cancellationRequested = s.cancellationRequested) rfl rfl

/-- A closed request stays closed and accepts nothing. -/
theorem closed_move (hinv : h.Invariant) (hclosed : h.Closed) (hmove : h.Move c h') :
    h'.Closed ∧ h'.accepted = h.accepted := by
  cases hmove with
  | stay => exact ⟨hclosed, rfl⟩
  | draw ids hids => exact ⟨hclosed, rfl⟩
  | accept chunk hcall hopen hvalid hrevision =>
    exfalso
    rcases hclosed with ⟨other, hmem, hfinal⟩ | hcancelled | hstate | hstate
    · rw [hinv.running hvalid.running other hmem] at hfinal
      cases hfinal
    · rw [hopen] at hcancelled
      cases hcancelled
    · rw [hvalid.running] at hstate
      cases hstate
    · rw [hvalid.running] at hstate
      cases hstate
  | discard after hclears =>
    have hemptied := hclears.emptied
    refine ⟨?_, rfl⟩
    rcases hclosed with hfinal | hcancelled | hstate | hstate
    · exact Or.inl hfinal
    · exact Or.inr (Or.inl (hemptied.cancelled_of hcancelled))
    · exact Or.inr (Or.inr (Or.inl ((hemptied.state_of (by rw [hstate]; decide)).trans hstate)))
    · exact Or.inr (Or.inr (Or.inr ((hemptied.state_of (by rw [hstate]; decide)).trans hstate)))
  | take chunk rest views havailable hviews =>
    refine ⟨?_, rfl⟩
    simp only [Closed, bumped_state, bumped_cancellationRequested]
    exact hclosed
  | release found hcall hfind =>
    refine ⟨?_, rfl⟩
    simp only [Closed, bumped_state, bumped_cancellationRequested]
    exact hclosed

theorem closed_of_cancellation (haccounted : h.request.Accounted)
    (hreply : (h.call c).1 = .cancellation true) : (h.step c).Closed := by
  have hof : ∀ (returned : Unit → RequestReply) (outcome : Except RequestStateError Unit),
      (∀ u, returned u = .done) → RequestReply.of returned outcome ≠ .cancellation true := by
    rintro returned (error | u) hdone
    · simp [RequestReply.of]
    · simp [RequestReply.of, hdone]
  cases c with
  | requestCancellation =>
    simp only [RequestSystem.call] at hreply
    by_cases hrunning : h.request.state = .running
    · by_cases hrequested : h.request.cancellationRequested = true
      · refine Or.inr (Or.inl ?_)
        simp only [step, RequestSystem.step, RequestSystem.call,
          StreamingRequestState.requestCancellation_of_requested hrunning hrequested, hrequested]
      · refine Or.inr (Or.inl ?_)
        simp only [step, RequestSystem.step, RequestSystem.call,
          StreamingRequestState.requestCancellation_of_open haccounted hrunning
            (Bool.eq_false_iff.mpr hrequested), StreamingRequestState.incrementRevision_snd,
          bumped_cancellationRequested]
        rfl
    · rw [StreamingRequestState.requestCancellation_of_ne hrunning] at hreply
      simp only [RequestReply.of, RequestReply.cancellation.injEq, decide_eq_true_eq] at hreply
      refine Or.inr (Or.inr (Or.inl ?_))
      simp only [step, RequestSystem.step, RequestSystem.call,
        StreamingRequestState.requestCancellation_of_ne hrunning, hreply]
  | publish chunk =>
    simp only [RequestSystem.call] at hreply
    cases houtcome : (h.request.publish chunk).1 <;> simp [houtcome, RequestReply.of] at hreply
  | completeCancellationAfterDrain =>
    simp only [RequestSystem.call] at hreply
    cases houtcome : h.request.completeCancellationAfterDrain.1 <;>
      simp [houtcome, RequestReply.of] at hreply
  | acquireAudio =>
    simp only [RequestSystem.call] at hreply
    cases houtcome : (h.request.acquireAudio h.leaseIds).1 <;>
      simp [houtcome, RequestReply.of] at hreply
  | drawElsewhere => simp [RequestSystem.call] at hreply
  | discardUnleasedAudio => exact absurd hreply (hof _ _ fun _ => rfl)
  | completeCancellation => exact absurd hreply (hof _ _ fun _ => rfl)
  | fail status stage message => exact absurd hreply (hof _ _ fun _ => rfl)
  | releaseAudio leaseId => exact absurd hreply (hof _ _ fun _ => rfl)

theorem closed_of_failure (haccounted : h.request.Accounted) {status stage : ℤ}
    {message : List UInt8} (hreply : (h.call (.fail status stage message)).1 = .done) :
    (h.step (.fail status stage message)).Closed := by
  by_cases hrejected : StreamingRequestState.RejectsFailure status stage message ∨
      h.request.state ≠ .running
  · obtain ⟨error, hfail⟩ := StreamingRequestState.fail_of_not hrejected
    simp [RequestSystem.call, hfail, RequestReply.of] at hreply
  · rw [not_or, not_not] at hrejected
    refine Or.inr (Or.inr (Or.inr ?_))
    simp only [step, RequestSystem.step, RequestSystem.call,
      StreamingRequestState.fail_of_running haccounted hrejected.1 hrejected.2,
      StreamingRequestState.incrementRevision_snd, bumped_state]
    rfl

/-- A lease leaves the table only by a release of its identifier. -/
theorem lease_kept_move (hmove : h.Move c h') {lease : StoredLease}
    (hmem : lease ∈ h.request.liveLeases) (hgone : lease ∉ h'.request.liveLeases) :
    c = .releaseAudio lease.leaseId := by
  cases hmove with
  | stay => exact absurd hmem hgone
  | draw ids hids => exact absurd hmem hgone
  | accept chunk hcall hopen hvalid hrevision =>
    rw [bumped_liveLeases] at hgone
    exact absurd hmem hgone
  | discard after hclears =>
    rw [hclears.emptied.liveLeases_eq] at hgone
    exact absurd hmem hgone
  | take chunk rest views havailable hviews =>
    rw [bumped_liveLeases] at hgone
    exact absurd (List.mem_append_left _ hmem) hgone
  | release found hcall hfind =>
    rw [bumped_liveLeases] at hgone
    have hid : lease.leaseId = found.leaseId := by
      by_contra hne
      exact hgone ((List.mem_eraseP_of_neg (by simpa using hne)).mpr hmem)
    rw [hcall, hid]

theorem rejected_publish {chunk : AudioChunk}
    (hrevision : ¬ h.PublishesAtLastRevision (.publish chunk))
    (hreply : (h.call (.publish chunk)).1 ≠ .published true) :
    (h.step (.publish chunk)).request = h.request := by
  simp only [step, RequestSystem.step, RequestSystem.call] at hreply ⊢
  by_cases hcancelled : h.request.cancellationRequested = true
  · rw [StreamingRequestState.publish_of_cancelled hcancelled]
  · have hopen : h.request.cancellationRequested = false := Bool.eq_false_iff.mpr hcancelled
    by_cases hvalid : h.request.ValidChunk chunk
    · have hlast : h.request.revision ≠ maximumUint64 :=
        fun hmax => hrevision ⟨chunk, rfl, hopen, hvalid, hmax⟩
      rw [StreamingRequestState.publish_of_valid hopen hvalid,
        StreamingRequestState.incrementRevision_of_lt (by exact hlast)] at hreply
      exact absurd rfl hreply
    · obtain ⟨error, hpublish⟩ := StreamingRequestState.publish_of_not_valid hopen hvalid
      rw [hpublish]

theorem Invariant.callKeeps (hinv : h.Invariant) (hrevision : ¬ h.PublishesAtLastRevision c) :
    h.CallKeeps c := by
  have hmove := move_step hinv.accounted
    (fun lease hmem => hinv.leaseIds_lt lease (hinv.leases.subset hmem)) hrevision
  refine
    { conservation := (hinv.move hmove).conservation
      closed := fun hclosed => closed_move hinv hclosed hmove
      closed_of_cancellation := closed_of_cancellation hinv.accounted
      closed_of_failure := ?_
      lease_kept := fun lease hmem hgone => lease_kept_move hmove hmem hgone
      rejected := ?_ }
  · rintro status stage message rfl hreply
    exact closed_of_failure hinv.accounted hreply
  · rintro chunk rfl hreply
    exact rejected_publish hrevision hreply

/-- A publication at the last revision throws and keeps the chunk. -/
theorem not_callKeeps_of_publishesAtLastRevision (h : RequestHistory) {c : RequestCall}
    (hlast : h.PublishesAtLastRevision c) : ¬ h.CallKeeps c := by
  obtain ⟨chunk, rfl, hopen, hvalid, hmax⟩ := hlast
  intro hkeeps
  have hpublish : h.request.publish chunk =
      (.error ⟨.invalidTransition, "request revision is exhausted", -1⟩,
        h.request.acceptChunk chunk) := by
    rw [StreamingRequestState.publish_of_valid hopen hvalid]
    exact if_pos hmax
  have hsame := hkeeps.rejected chunk rfl (by simp [RequestSystem.call, hpublish, RequestReply.of])
  simp only [step, RequestSystem.step, RequestSystem.call, hpublish] at hsame
  have hsequence := congrArg StreamingRequestState.nextSequence hsame
  simp only [StreamingRequestState.acceptChunk, addUint64] at hsequence
  omega

/-! ### Whole runs -/

/-- Chunk number `k` of an unending stream without alignment. -/
def streamChunk (k : ℕ) : AudioChunk where
  samples :=
    { samples := 64
      sampleCount := (if k = 0 then 4 else 8) * 1024
      null_iff := by split <;> decide }
  firstSampleIndex := if k = 0 then 0 else (8192 * k - 4096) % 18446744073709551616
  sequence := k
  codecFrameCount := if k = 0 then 4 else 8
  first := k = 0
  final := false
  alignmentValid := false
  committedTextTokens := 0
  alignmentEvents := []

/-- **Conservation over whole runs.** From a fresh request, every call of a run keeps the
conservation property if and only if no call publishes at the last revision. -/
theorem stepsMeet_callKeeps_iff (textTokenCount capacity : ℕ) (hcapacity : capacity ≤ maximumUint32)
    (request : StreamingRequestState)
    (hrequest : StreamingRequestState.construct textTokenCount capacity = .ok request)
    (ids : LeaseIdSequence) (calls : List RequestCall) :
    StepsMeet step CallKeeps (start request ids) calls ↔
      StepsMeet step (fun h c => ¬ h.PublishesAtLastRevision c) (start request ids) calls := by
  refine stepsMeet_iff_of_invariant (I := Invariant) (fun h c hinv => ?_)
    (fun h c hinv hrevision => hinv.step hrevision) (invariant_start hcapacity hrequest ids) calls
  exact ⟨fun hkeeps hlast => not_callKeeps_of_publishesAtLastRevision h hlast hkeeps,
    hinv.callKeeps⟩

theorem stepsMeet_callKeeps_first_chunk :
    ∃ request, StreamingRequestState.construct 39 8 = .ok request ∧
      StepsMeet step CallKeeps (start request ⟨1⟩)
        [.publish (streamChunk 0), .acquireAudio, .releaseAudio 1] := by
  refine ⟨_, rfl, (stepsMeet_callKeeps_iff 39 8 (by decide) _ rfl ⟨1⟩ _).mpr ⟨?_, ?_, ?_, trivial⟩⟩
  · rintro ⟨_, _, _, _, hmax⟩
    exact absurd hmax (by decide)
  · rintro ⟨_, hcall, _⟩
    cases hcall
  · rintro ⟨_, hcall, _⟩
    cases hcall

/-! ### A run to the last revision -/

/-- The chunk is published, leased and released. -/
def streamCycle (k : ℕ) : List RequestCall :=
  [.publish (streamChunk k), .acquireAudio, .releaseAudio (k + 1)]

/-- The state in front of chunk number `k`. -/
structure CycleState (k : ℕ) (s : RequestSystem) : Prop where
  running : s.request.state = .running
  opened : s.request.cancellationRequested = false
  capacity_eq : s.request.pcmRingCapacityFrames = 8
  occupied_eq : s.request.occupiedCodecFrames = 0
  nextSequence_eq : s.request.nextSequence = k
  nextSampleIndex_eq : s.request.nextSampleIndex = (streamChunk k).firstSampleIndex
  revision_eq : s.request.revision = 1 + 3 * k
  queue_eq : s.request.availableAudio = []
  leases_eq : s.request.liveLeases = []
  leaseIds_eq : s.leaseIds = ⟨k + 1⟩

namespace CycleState

variable {k : ℕ} {s : RequestSystem}

/-- The system with chunk number `k` in its queue. -/
def published (k : ℕ) (s : RequestSystem) : RequestSystem :=
  { s with request := { s.request.acceptChunk (streamChunk k) with
      revision := s.request.revision + 1 } }

/-- The system with chunk number `k` on lease. -/
def leased (k : ℕ) (s : RequestSystem) : RequestSystem :=
  { request := { (published k s).request.leased [] ⟨k + 1, streamChunk k⟩ with
      revision := s.request.revision + 2 }
    leaseIds := ⟨k + 2⟩ }

theorem nextSequence_published (h : CycleState k s) (hk : 3 * k < 18446744073709551613) :
    (leased k s).request.nextSequence = k + 1 := by
  change addUint64 s.request.nextSequence 1 = k + 1
  rw [h.nextSequence_eq, addUint64_eq]
  rw [maximumUint64]
  omega

theorem nextSampleIndex_published (h : CycleState k s) :
    (leased k s).request.nextSampleIndex = (streamChunk (k + 1)).firstSampleIndex := by
  change addUint64 s.request.nextSampleIndex _ = _
  rw [h.nextSampleIndex_eq]
  simp only [streamChunk, addUint64, Nat.succ_ne_zero, if_false]
  split <;> omega

theorem occupied_leased (h : CycleState k s) :
    (leased k s).request.occupiedCodecFrames = (streamChunk k).codecFrameCount := by
  change addUint32 s.request.occupiedCodecFrames _ = _
  rw [h.occupied_eq]
  simp only [streamChunk, addUint32]
  split <;> rfl

theorem step_publish (h : CycleState k s) :
    s.step (.publish (streamChunk k)) = published k s := by
  have hrevision := h.revision_eq
  have hvalid : s.request.ValidChunk (streamChunk k) :=
    { running := h.running
      frames_le := by simp only [streamChunk]; split <;> decide
      marker := by simp only [streamChunk]; split <;> simp
      sampleCount_eq := rfl
      firstSampleIndex_eq := h.nextSampleIndex_eq.symm
      sequence_eq := h.nextSequence_eq.symm
      first_eq := by rw [h.nextSequence_eq]; rfl
      first_frames := by simp [streamChunk]
      steady_frames := by simp [streamChunk]
      fits := by
        rw [h.capacity_eq, h.occupied_eq]
        simp only [streamChunk]
        split <;> decide
      invalid_alignment := fun _ => ⟨rfl, rfl⟩
      committed_range := fun hfalse => by cases hfalse
      committed_eq := fun hfalse => by cases hfalse
      events_advance := trivial
      committed_last := fun hfalse => by cases hfalse }
  simp only [RequestSystem.step, RequestSystem.call,
    StreamingRequestState.publish_of_valid h.opened hvalid]
  rw [StreamingRequestState.incrementRevision_of_lt]
  · rfl
  · change s.request.revision ≠ _
    rw [maximumUint64]
    omega

theorem step_acquireAudio (h : CycleState k s) (hk : 3 * k < 18446744073709551613) :
    (published k s).step .acquireAudio = leased k s := by
  have hrevision := h.revision_eq
  have havailable : (published k s).request.availableAudio = [streamChunk k] := by
    change s.request.availableAudio ++ [streamChunk k] = _
    rw [h.queue_eq, List.nil_append]
  have hids : ¬ (published k s).leaseIds.Exhausted := by
    change ¬ s.leaseIds.Exhausted
    rw [h.leaseIds_eq, LeaseIdSequence.Exhausted, maximumUint64]
    simp only
    omega
  have hleases : (published k s).request.liveLeases = [] := h.leases_eq
  simp only [RequestSystem.step, RequestSystem.call,
    StreamingRequestState.acquireAudio_of_cons havailable hids (by simp [hleases])]
  rw [StreamingRequestState.bumped, if_neg]
  · simp only [published, leased, h.leaseIds_eq]
    rfl
  · change s.request.revision + 1 ≠ _
    rw [maximumUint64]
    omega

theorem run_streamCycle (h : CycleState k s) (hk : 3 * k < 18446744073709551612) :
    CycleState (k + 1) (run RequestSystem.step s (streamCycle k)) := by
  have hrevision := h.revision_eq
  rw [streamCycle, run_cons, run_cons, run_cons, run_nil, h.step_publish,
    h.step_acquireAudio (by omega)]
  have hleases : (leased k s).request.liveLeases = [⟨k + 1, streamChunk k⟩] := by
    change s.request.liveLeases ++ _ = _
    rw [h.leases_eq, List.nil_append]
  have hoccupied := h.occupied_leased
  have hfind : ((leased k s).request.liveLeases.find? fun lease => lease.leaseId = k + 1) =
      some ⟨k + 1, streamChunk k⟩ := by
    rw [hleases]
    simp
  have haccounted : (leased k s).request.Accounted := by
    refine ⟨?_, ?_, ?_⟩
    · rw [hoccupied, StreamingRequestState.leaseFrames, hleases]
      simp [StreamingRequestState.queueFrames, leased, StreamingRequestState.leased]
    · rw [hoccupied]
      change _ ≤ s.request.pcmRingCapacityFrames
      rw [h.capacity_eq]
      simp only [streamChunk]
      split <;> decide
    · change s.request.pcmRingCapacityFrames ≤ _
      rw [h.capacity_eq]
      decide
  have hne : ¬ ((leased k s).request.unleased ⟨k + 1, streamChunk k⟩).revision = maximumUint64 := by
    change ¬ s.request.revision + 2 = _
    rw [maximumUint64]
    omega
  simp only [RequestSystem.step, RequestSystem.call,
    StreamingRequestState.releaseAudio_of_some haccounted hfind,
    StreamingRequestState.incrementRevision_snd, StreamingRequestState.bumped, if_neg hne]
  exact
    { running := h.running
      opened := h.opened
      capacity_eq := h.capacity_eq
      occupied_eq := by
        change (leased k s).request.occupiedCodecFrames - (streamChunk k).codecFrameCount = 0
        rw [hoccupied, Nat.sub_self]
      nextSequence_eq := h.nextSequence_published (by omega)
      nextSampleIndex_eq := h.nextSampleIndex_published
      revision_eq := by
        change s.request.revision + 2 + 1 = _
        omega
      queue_eq := rfl
      leases_eq := by
        change (leased k s).request.liveLeases.eraseP _ = []
        rw [hleases]
        simp
      leaseIds_eq := rfl }

/-- The state behind the first `n` cycles. -/
theorem run_cycles {start : RequestSystem} (hstart : CycleState 0 start) : (n : ℕ) →
    3 * n ≤ 18446744073709551612 →
    CycleState n (run RequestSystem.step start ((List.range n).flatMap streamCycle))
  | 0, _ => hstart
  | n + 1, hn => by
      rw [List.range_succ, List.flatMap_append, List.flatMap_singleton, run_append]
      exact (run_cycles hstart n (by omega)).run_streamCycle (by omega)

end CycleState

theorem run_toRequestSystem (h : RequestHistory) (calls : List RequestCall) :
    (run step h calls).toRequestSystem = run RequestSystem.step h.toRequestSystem calls := by
  induction calls generalizing h with
  | nil => rfl
  | cons c calls ih => exact ih (h.step c)

/-- The zero-frame marker that ends the stream behind chunk number `k`. -/
def finalMarker (k : ℕ) : AudioChunk where
  samples := { samples := 0, sampleCount := 0, null_iff := Iff.rfl }
  firstSampleIndex := (streamChunk (k + 1)).firstSampleIndex
  sequence := k + 1
  codecFrameCount := 0
  first := false
  final := true
  alignmentValid := false
  committedTextTokens := 0
  alignmentEvents := []

/-- The calls of `k` cycles and of one that leaves its chunk on lease. -/
def exhaustingCalls (k : ℕ) : List RequestCall :=
  (List.range k).flatMap streamCycle ++ [.publish (streamChunk k), .acquireAudio]

/-- Behind that many cycles the revisions are used up, and the final marker is still valid. -/
theorem CycleState.publishesAtLastRevision {k : ℕ} {s : RequestSystem} (hcycle : CycleState k s)
    (hk : 3 * k = 18446744073709551612) (hsystem : h.toRequestSystem = leased k s) :
    h.PublishesAtLastRevision (.publish (finalMarker k)) := by
  have hsequence := hcycle.nextSequence_published (by omega)
  have hrevision := hcycle.revision_eq
  refine ⟨finalMarker k, rfl, ?_, ?_, ?_⟩
  · rw [hsystem]
    exact hcycle.opened
  · rw [hsystem]
    exact
      { running := hcycle.running
        frames_le := by simp [finalMarker]
        marker := fun _ => ⟨rfl, rfl⟩
        sampleCount_eq := by simp [finalMarker]
        firstSampleIndex_eq := hcycle.nextSampleIndex_published.symm
        sequence_eq := hsequence.symm
        first_eq := by
          rw [hsequence, decide_eq_false (Nat.succ_ne_zero k)]
          rfl
        first_frames := fun hfalse => by cases hfalse
        steady_frames := fun _ hfalse => by cases hfalse
        fits := Nat.zero_le _
        invalid_alignment := fun _ => ⟨rfl, rfl⟩
        committed_range := fun hfalse => by cases hfalse
        committed_eq := fun hfalse => by cases hfalse
        events_advance := trivial
        committed_last := fun hfalse => by cases hfalse }
  · rw [hsystem]
    change s.request.revision + 2 = _
    rw [maximumUint64]
    omega

theorem CycleState.of_construct {request : StreamingRequestState}
    (hrequest : StreamingRequestState.construct 39 8 = .ok request) :
    CycleState 0 ⟨request, ⟨1⟩⟩ := by
  rw [StreamingRequestState.construct, if_neg (by decide), if_neg (by decide),
    Except.ok.injEq] at hrequest
  subst hrequest
  exact ⟨rfl, rfl, rfl, rfl, rfl, rfl, rfl, rfl, rfl, rfl⟩

theorem not_stepsMeet_callKeeps_of_exhaustingCalls {request : StreamingRequestState}
    (hrequest : StreamingRequestState.construct 39 8 = .ok request) {k : ℕ}
    (hk : 3 * k = 18446744073709551612) :
    ¬ StepsMeet step CallKeeps (start request ⟨1⟩)
      (exhaustingCalls k ++ [.publish (finalMarker k)]) := by
  intro hkeeps
  rw [stepsMeet_append] at hkeeps
  refine not_callKeeps_of_publishesAtLastRevision _ ?_ hkeeps.2.1
  have hcycle := (CycleState.of_construct hrequest).run_cycles k (by omega)
  refine hcycle.publishesAtLastRevision hk ?_
  rw [run_toRequestSystem, exhaustingCalls, run_append]
  change run RequestSystem.step (run RequestSystem.step ⟨request, ⟨1⟩⟩ _) _ = _
  rw [run_cons, run_cons, run_nil, hcycle.step_publish, hcycle.step_acquireAudio (by omega)]

/-- The final marker is offered at revision `2 ^ 64 - 1`: `publish` throws and keeps it. -/
theorem not_stepsMeet_callKeeps_exhausted :
    ∃ request, StreamingRequestState.construct 39 8 = .ok request ∧
      ¬ StepsMeet step CallKeeps (start request ⟨1⟩)
        (exhaustingCalls 6148914691236517204 ++ [.publish (finalMarker 6148914691236517204)]) :=
  ⟨_, rfl, not_stepsMeet_callKeeps_of_exhaustingCalls rfl (by omega)⟩

end RequestHistory

end MagpieTts.Runtime
