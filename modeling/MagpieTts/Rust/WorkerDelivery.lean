import MagpieTts.Rust.WorkerNativeCalls
import MagpieTts.Rust.WorkerWakeups
import Mathlib.Data.List.Infix

/-!
# The delivery of the audio by the inference worker

The owner of a stream receives the chunks that the native library publishes, in their order. Nothing
is lost while the owner stays connected, unless the worker is shut down or a native call fails; and
the stream is only completed when every published chunk has been sent.

The native library is known by its replies: it publishes a list of chunks for each stream, and a
trace conforms to the lists when each lease shows the next chunk and a snapshot of a completed
request advertises what is left.

## Main definitions

* `Conforms`, `ConformingTrace`: the replies of a library that publishes the chunks.
* `Delivering`: the books of a request whose library conforms.
* `ConnectionHolds`: why the worker has dropped the sender of a stream.
* `AudioDelivered`: what the streams carry.

## Main results

* `Orderly.delivering`: the books of a conforming trace.
* `audioDelivered_run`: the streams of every interleaving.
* `not_delivered_shutdown`: a chunk that a shutdown loses.
-/

namespace MagpieTts.Rust

open MagpieTts.Library MagpieTts.Api

/-! ### Conforming replies -/

section Conforming

variable (published : ℕ → List OwnedAudioChunk)

/-- A snapshot of a completed request advertises what is left of the published chunks. -/
def AdvertisesRest (ledger : WorkerLedger) (raw : PublicSnapshot) : Prop :=
  raw.state = publicRequestState .completed → ∀ live, ledger.live = some live →
    live.acquired.length + raw.availableAudioLeases = (published live.stream).length

/-- The reply is that of a library that publishes the chunks for the stream of the live request: a
lease shows the next chunk, and the final one is the last; behind a snapshot of a completed request
an acquire only returns nothing when nothing is left. -/
def Conforms (ledger : WorkerLedger) :
    Performed WorkerOperation WorkerOperation.Reply → Prop
  | ⟨.copySamples _ raw, samples⟩ => ∀ live, ledger.live = some live →
    (published live.stream)[live.acquired.length]? = some (LiveRequest.chunkOf raw samples) ∧
      (raw.flags &&& audioFlagFinal ≠ 0 →
        live.acquired.length + 1 = (published live.stream).length)
  | ⟨.audioAcquire _, .ok none⟩ => ∀ live snapshot, ledger.live = some live →
    live.terminal = some snapshot → snapshot.state = .completed →
      live.acquired.length = (published live.stream).length
  | ⟨.requestPoll _, .ok raw⟩ => AdvertisesRest published ledger raw
  | ⟨.requestWait _ _, .ok (some raw)⟩ => AdvertisesRest published ledger raw
  | _ => True

/-- Every reply of the trace conforms. -/
def ConformingTrace (trace : WorkerTrace) : Prop :=
  StepsMeet WorkerLedger.step (Conforms published) .initial trace

variable {published}

theorem ConformingTrace.of_append {trace trace' : WorkerTrace}
    (h : ConformingTrace published (trace ++ trace')) : ConformingTrace published trace :=
  ((stepsMeet_append _ _).mp h).1

theorem ConformingTrace.conforms {trace rest : WorkerTrace}
    {entry : Performed WorkerOperation WorkerOperation.Reply}
    (h : ConformingTrace published (trace ++ entry :: rest)) :
    Conforms published (ledgerOf trace) entry :=
  ((stepsMeet_append _ _).mp h).2.1

end Conforming

/-! ### The books of a conforming request -/

/-- How far the events of a healthy request have got: all acquired chunks were sent, or all but the
last, or the event of the terminal snapshot as well. -/
inductive LiveRequest.Delivered (live : LiveRequest) : Prop
  | all (hsent : live.sent = live.audioEvents)
  | pending (chunk : OwnedAudioChunk) (hsent : live.audioEvents = live.sent ++ [.audio chunk])
  | ended (event : SynthesisEvent) (hevent : event.EndsRequest)
      (hsent : live.sent = live.audioEvents ++ [event])

/-- The chunks of leases that have been acquired and not been copied yet. -/
def LiveRequest.unread (live : LiveRequest) : ℕ :=
  if live.lease.isSome = true ∧ live.copied = false then 1 else 0

/-- The books of a request whose library publishes the chunks. -/
structure Delivering (published : ℕ → List OwnedAudioChunk) (live : LiveRequest) : Prop where
  acquired : live.acquired <+: published live.stream
  final : live.finalAcquired = true → live.acquired.length = (published live.stream).length
  completed : live.failing = false → ∀ snapshot, live.terminal = some snapshot →
    snapshot.state = .completed →
      live.acquired.length + live.advertised + live.unread = (published live.stream).length
  unread : live.attached = true → live.lease.isSome = true → live.copied = false →
    live.sent = live.audioEvents
  delivered : live.attached = true → live.failing = false → live.Delivered

theorem LiveRequest.unread_of_lease_eq_none {live : LiveRequest} (h : live.lease = none) :
    live.unread = 0 := by
  rw [unread, h]
  exact if_neg fun habsurd => nomatch habsurd.1

theorem completed_of_requestStateFromRaw {operation : String} {raw : ℤ}
    (h : requestStateFromRaw operation raw = .ok .completed) :
    raw = publicRequestState .completed := by
  rw [requestStateFromRaw.eq_def] at h
  split at h
  · cases h
  · rfl
  · cases h
  · cases h
  · cases h

/-- The next element extends a prefix. -/
theorem concat_prefix_of_getElem? {α : Type} {part whole : List α} {value : α} (h : part <+: whole)
    (hnext : whole[part.length]? = some value) : part ++ [value] <+: whole := by
  obtain ⟨rest, rfl⟩ := h
  rw [List.getElem?_append_right (Nat.le_refl _), Nat.sub_self] at hnext
  cases rest with
  | nil => cases hnext
  | cons next more =>
    cases hnext
    exact ⟨more, by rw [List.append_assoc]; rfl⟩

section Steps

variable {published : ℕ → List OwnedAudioChunk} {ledger : WorkerLedger} {live : LiveRequest}

/-- A validated snapshot of a conforming library. -/
theorem Delivering.observe (h : Delivering published live) (hlive : ledger.live = some live)
    (hlease : live.lease = none) (hterminal : live.terminal = none) {operation : String}
    {raw : PublicSnapshot} {minimum : Option ℕ} {snapshot : RequestSnapshot}
    {snapshots : SnapshotRecord} (hconforms : AdvertisesRest published ledger raw)
    (hvalid : live.snapshots.validateSnapshot operation raw minimum = .ok (snapshot, snapshots))
    {failing : Bool} (hfailing : failing = false → live.failing = false) :
    Delivering published { live.observe snapshot snapshots with failing } := by
  obtain ⟨hstate, havailable, -⟩ := fields_of_validateSnapshot hvalid
  refine ⟨h.acquired, h.final, fun _ terminal hobserved hcompleted => ?_, h.unread,
    fun hattached hhealthy => ?_⟩
  · change (if snapshot.state ≠ .running then some snapshot else live.terminal) = some terminal
      at hobserved
    by_cases hrunning : snapshot.state ≠ .running
    · rw [if_pos hrunning] at hobserved
      cases hobserved
      rw [hcompleted] at hstate
      have hrest := hconforms (completed_of_requestStateFromRaw hstate) live hlive
      have hunread : LiveRequest.unread { live.observe snapshot snapshots with failing } = 0 :=
        LiveRequest.unread_of_lease_eq_none hlease
      rw [hunread]
      change live.acquired.length + snapshot.availableAudioLeases + 0 =
        (published live.stream).length
      rw [havailable, Nat.add_zero]
      exact hrest
    · rw [if_neg hrunning, hterminal] at hobserved
      cases hobserved
  · cases h.delivered hattached (hfailing hhealthy) with
    | all hsent => exact .all hsent
    | pending chunk hsent => exact .pending chunk hsent
    | ended event hevent hsent => exact .ended event hevent hsent

/-- A change that leaves the chunks, the lease and the events alone. -/
theorem Delivering.congr (h : Delivering published live) {live' : LiveRequest}
    (hstream : live'.stream = live.stream) (hacquired : live'.acquired = live.acquired)
    (hfinal : live'.finalAcquired = live.finalAcquired)
    (hlease : live'.lease = live.lease ∧ live'.copied = live.copied)
    (hsent : live'.sent = live.sent) (hattached : live'.attached = true → live.attached = true)
    (hfailing : live'.failing = false → live.failing = false)
    (hcompleted : live'.failing = false → ∀ snapshot, live'.terminal = some snapshot →
      snapshot.state = .completed → live.terminal = some snapshot ∧
        live'.advertised = live.advertised) : Delivering published live' := by
  have haudio : live'.audioEvents = live.audioEvents := by
    rw [LiveRequest.audioEvents, LiveRequest.audioEvents, hacquired]
  have hunread : live'.unread = live.unread := by
    rw [LiveRequest.unread, LiveRequest.unread, hlease.1, hlease.2]
  refine ⟨?_, ?_, fun hhealthy snapshot hsnapshot hstate => ?_, fun hlive' hleased hcopied => ?_,
    fun hlive' hhealthy => ?_⟩
  · rw [hstream, hacquired]
    exact h.acquired
  · rw [hstream, hacquired, hfinal]
    exact h.final
  · obtain ⟨hterminal, hadvertised⟩ := hcompleted hhealthy snapshot hsnapshot hstate
    rw [hstream, hacquired, hadvertised, hunread]
    exact h.completed (hfailing hhealthy) snapshot hterminal hstate
  · rw [hsent, haudio]
    rw [hlease.1] at hleased
    rw [hlease.2] at hcopied
    exact h.unread (hattached hlive') hleased hcopied
  · cases h.delivered (hattached hlive') (hfailing hhealthy) with
    | all hall => exact .all (by rw [hsent, haudio, hall])
    | pending chunk hpending => exact .pending chunk (by rw [hsent, haudio, hpending])
    | ended event hevent hended => exact .ended event hevent (by rw [hsent, haudio, hended])

end Steps

/-- An event is sent. -/
theorem Delivering.sends {published : ℕ → List OwnedAudioChunk} {live : LiveRequest}
    (h : Delivering published live) (hlease : live.lease = none) {event : SynthesisEvent}
    (hsends : live.Sends event) :
    Delivering published { live with sent := live.sent ++ [event] } := by
  refine ⟨h.acquired, h.final, h.completed, fun _ habsurd => ?_, fun _ hhealthy => ?_⟩
  · change live.lease.isSome = true at habsurd
    rw [hlease] at habsurd
    cases habsurd
  · by_cases hends : event.EndsRequest
    · refine .ended event hends ?_
      rw [(hsends.healthy hends).1]
      rfl
    · cases event with
      | audio chunk => exact .all hsends.symm
      | runtimeError error => exact absurd (hsends.1.symm.trans hhealthy) (by decide)
      | _ => exact absurd trivial hends

/-- **The books of a conforming trace.** -/
theorem Orderly.delivering {published : ℕ → List OwnedAudioChunk} {trace : WorkerTrace}
    (h : Orderly trace) (hconforming : ConformingTrace published trace) :
    ∀ live, (ledgerOf trace).live = some live → Delivering published live := by
  have hall : ∀ live, (ledgerOf trace).live = some live → ConformingTrace published trace →
      Delivering published live := by
    refine Orderly.live_induction
      (P := fun trace live => ConformingTrace published trace → Delivering published live) ?_ ?_ h
    · intro trace textTokenIds randomSeed handle command _ _ _
      exact ⟨List.nil_prefix, (by rintro ⟨⟩), (by rintro _ _ ⟨⟩), (by rintro _ ⟨⟩),
        fun _ _ => .all rfl⟩
    intro trace entry live live' horderly hlive hstep ih hconforming
    have hlast := ih hconforming.of_append
    have hconforms := hconforming.conforms
    have hallows := horderly.allows
    cases hstep with
    | same hsent hcall => exact hlast
    | command requestId reply =>
      exact hlast.congr rfl rfl rfl ⟨rfl, rfl⟩ rfl id id fun _ _ hsnapshot _ => ⟨hsnapshot, rfl⟩
    | sent event =>
      obtain ⟨live', hlive', -, -, hlease, hsends⟩ := hallows
      cases hlive.symm.trans hlive'
      exact hlast.sends hlease hsends
    | refused event =>
      exact hlast.congr rfl rfl rfl ⟨rfl, rfl⟩ rfl id id fun _ _ hsnapshot _ => ⟨hsnapshot, rfl⟩
    | detached =>
      exact hlast.congr rfl rfl rfl ⟨rfl, rfl⟩ rfl (by rintro ⟨⟩) id
        fun _ _ hsnapshot _ => ⟨hsnapshot, rfl⟩
    | cancels handle reply =>
      obtain ⟨live', hlive', -, hterminal, -⟩ := hallows
      cases hlive.symm.trans hlive'
      cases reply with
      | ok _ =>
        refine hlast.congr rfl rfl rfl ⟨rfl, rfl⟩ rfl id id fun _ snapshot habsurd _ => ?_
        cases hterminal.symm.trans habsurd
      | error error =>
        refine hlast.congr rfl rfl rfl ⟨rfl, rfl⟩ rfl id ?_ fun _ snapshot habsurd _ => ?_
        · exact fun hhealthy => (Bool.or_eq_false_iff.mp hhealthy).1
        · cases hterminal.symm.trans habsurd
    | polled handle reply =>
      obtain ⟨live', hlive', ⟨-, hlease, -⟩, hterminal, -⟩ := hallows
      cases hlive.symm.trans hlive'
      rw [LiveRequest.polled.eq_def]
      split
      · refine hlast.congr rfl rfl rfl ⟨rfl, rfl⟩ rfl id ?_ fun _ snapshot habsurd _ => ?_
        · exact fun hhealthy => (Bool.or_eq_false_iff.mp hhealthy).1
        · cases hterminal.symm.trans habsurd
      · split
        · refine hlast.congr rfl rfl rfl ⟨rfl, rfl⟩ rfl id ?_ fun _ snapshot habsurd _ => ?_
          · exact fun hhealthy => (Bool.or_eq_false_iff.mp hhealthy).1
          · cases hterminal.symm.trans habsurd
        · rename_i hvalid
          exact hlast.observe hlive hlease hterminal hconforms hvalid
            fun hhealthy => (Bool.or_eq_false_iff.mp hhealthy).1
    | waited handle afterRevision reply =>
      obtain ⟨live', hlive', ⟨-, hlease, -⟩, hterminal⟩ := hallows
      cases hlive.symm.trans hlive'
      rw [LiveRequest.waited.eq_def]
      split
      · exact hlast.congr rfl rfl rfl ⟨rfl, rfl⟩ rfl id (by rintro ⟨⟩) (by rintro ⟨⟩)
      · exact hlast
      · split
        · exact hlast.congr rfl rfl rfl ⟨rfl, rfl⟩ rfl id (by rintro ⟨⟩) (by rintro ⟨⟩)
        · rename_i hvalid
          exact hlast.observe hlive hlease hterminal hconforms hvalid id
    | acquires handle reply =>
      obtain ⟨live', hlive', ⟨-, hlease, -⟩, hdrained, hsent⟩ := hallows
      cases hlive.symm.trans hlive'
      rcases reply with error | _ | raw
      · exact hlast.congr rfl rfl rfl ⟨rfl, rfl⟩ rfl id (by rintro ⟨⟩) (by rintro ⟨⟩)
      · refine ⟨hlast.acquired, hlast.final, fun _ snapshot hsnapshot hstate => ?_, hlast.unread,
          fun hattached hhealthy => ?_⟩
        · have hunread : (live.acquires (.ok none)).unread = 0 :=
            LiveRequest.unread_of_lease_eq_none hlease
          rw [hunread]
          exact hconforms live snapshot hlive hsnapshot hstate
        · exact .all (hsent hattached)
      · refine ⟨hlast.acquired, hlast.final, fun hhealthy snapshot hsnapshot hstate => ?_,
          fun hattached _ _ => hsent hattached, fun hattached _ => .all (hsent hattached)⟩
        have hrest := hlast.completed hhealthy snapshot hsnapshot hstate
        have hunread : (live.acquires (.ok (some raw))).unread = 1 := rfl
        have hpositive : live.advertised ≠ 0 := fun hzero => hdrained (.inl hzero)
        rw [LiveRequest.unread_of_lease_eq_none hlease] at hrest
        rw [hunread]
        change live.acquired.length + (live.advertised - 1) + 1 = (published live.stream).length
        omega
    | copies handle raw samples =>
      obtain ⟨live', hlive', -, hlease, hcopied⟩ := hallows
      cases hlive.symm.trans hlive'
      obtain ⟨hnext, hfinal⟩ := hconforms live hlive
      have hleased : live.lease.isSome = true := by rw [hlease]; rfl
      refine ⟨concat_prefix_of_getElem? hlast.acquired hnext, fun hflag => ?_,
        fun hhealthy snapshot hsnapshot hstate => ?_, (by rintro _ _ ⟨⟩), fun hattached _ => ?_⟩
      · change (live.acquired ++ [_]).length = (published live.stream).length
        rw [List.length_append]
        exact hfinal (by simpa [LiveRequest.copies] using hflag)
      · have hrest := hlast.completed hhealthy snapshot hsnapshot hstate
        have hunread : live.unread = 1 := if_pos ⟨hleased, hcopied⟩
        have hread : (live.copies raw samples).unread = 0 :=
          if_neg fun habsurd => by cases habsurd.2
        rw [hread]
        change (live.acquired ++ [_]).length + live.advertised + 0 = (published live.stream).length
        rw [List.length_append]
        simp only [List.length_singleton]
        omega
      · refine .pending (LiveRequest.chunkOf raw samples) ?_
        change (live.acquired ++ [_]).map _ = live.sent ++ _
        rw [List.map_append, hlast.unread hattached hleased hcopied]
        rfl
    | releases handle leaseId reply =>
      cases reply with
      | ok _ =>
        refine ⟨hlast.acquired, hlast.final, fun hhealthy snapshot hsnapshot hstate => ?_,
          (by rintro _ ⟨⟩), fun hattached hhealthy => ?_⟩
        · obtain ⟨hfailing, hcopied⟩ := Bool.or_eq_false_iff.mp hhealthy
          have hrest := hlast.completed hfailing snapshot hsnapshot hstate
          have hunread : live.unread = 0 := if_neg fun habsurd => by
            rw [habsurd.2] at hcopied
            cases hcopied
          have hreleased : (live.releases (.ok ())).unread = 0 :=
            LiveRequest.unread_of_lease_eq_none rfl
          rw [hreleased]
          rw [hunread] at hrest
          exact hrest
        · cases hlast.delivered hattached (Bool.or_eq_false_iff.mp hhealthy).1 with
          | all hsent => exact .all hsent
          | pending chunk hsent => exact .pending chunk hsent
          | ended event hevent hsent => exact .ended event hevent hsent
      | error error =>
        exact ⟨hlast.acquired, hlast.final, (by rintro ⟨⟩), (by rintro _ ⟨⟩), (by rintro _ ⟨⟩)⟩
    | destroyFails handle error =>
      exact hlast.congr rfl rfl rfl ⟨rfl, rfl⟩ rfl id (by rintro ⟨⟩) (by rintro ⟨⟩)
  exact fun live hlive => hall live hlive hconforming

/-! ### The chunks of a stream -/

/-- The chunks of the events. -/
def audioChunks (events : List SynthesisEvent) : List OwnedAudioChunk :=
  events.filterMap SynthesisEvent.chunk?

theorem audioChunks_append (events events' : List SynthesisEvent) :
    audioChunks (events ++ events') = audioChunks events ++ audioChunks events' :=
  List.filterMap_append

@[simp] theorem audioChunks_map (chunks : List OwnedAudioChunk) :
    audioChunks (chunks.map .audio) = chunks := by
  rw [audioChunks, List.filterMap_map]
  exact List.filterMap_some

/-- The chunks that a send leaves on the stream are the first ones that were acquired. -/
theorem LiveRequest.Sends.audioChunks_prefix {live : LiveRequest} {event : SynthesisEvent}
    (h : live.Sends event) : audioChunks (live.sent ++ [event]) <+: live.acquired := by
  by_cases hends : event.EndsRequest
  · have hnone : audioChunks [event] = [] := by
      cases event with
      | audio chunk => exact hends.elim
      | _ => rfl
    rw [audioChunks_append, hnone, List.append_nil, (h.healthy hends).1, audioEvents,
      audioChunks_map]
  · cases event with
    | audio chunk =>
      have hall : live.audioEvents = live.sent ++ [.audio chunk] := h
      rw [← hall, audioEvents, audioChunks_map]
    | runtimeError error =>
      obtain ⟨-, hprefix | ⟨-, event, hevent, hsent⟩⟩ := h
      · have hchunks := hprefix.filterMap SynthesisEvent.chunk?
        rw [audioChunks_append]
        change audioChunks live.sent ++ [] <+: _
        rw [List.append_nil]
        refine hchunks.trans ?_
        change audioChunks live.audioEvents <+: live.acquired
        rw [audioEvents, audioChunks_map]
      · have hnone : audioChunks [event] = [] := by
          cases event with
          | audio chunk => exact hevent.elim
          | _ => rfl
        rw [audioChunks_append, hsent, audioChunks_append, hnone, audioEvents, audioChunks_map]
        change live.acquired ++ [] ++ [] <+: _
        rw [List.append_nil, List.append_nil]
    | _ => exact absurd trivial hends

section Streams

variable {published : ℕ → List OwnedAudioChunk} {trace : WorkerTrace}

/-- **A stream carries the first chunks that were published for it.** -/
theorem Orderly.audioChunks_prefix (h : Orderly trace)
    (hconforming : ConformingTrace published trace)
    (stream : ℕ) : audioChunks (sentEvents trace stream) <+: published stream := by
  rcases List.eq_nil_or_concat' (sentEvents trace stream) with hevents | ⟨events, event, hevents⟩
  · rw [hevents]
    exact List.nil_prefix
  · obtain ⟨before, after, live, rfl, -, hlive, rfl, -, hsends, rfl⟩ := h.exists_last_send hevents
    rw [hevents]
    have hdelivering := h.of_append.delivering hconforming.of_append live hlive
    exact hsends.audioChunks_prefix.trans hdelivering.acquired

/-- **A stream is completed behind all published chunks.** -/
theorem Orderly.completed_of_mem (h : Orderly trace) (hconforming : ConformingTrace published trace)
    {stream : ℕ} (hcompleted : .completed ∈ sentEvents trace stream) :
    ∃ rest, sentEvents trace stream = (published stream).map .audio ++ .completed :: rest := by
  obtain ⟨events, more, hevents⟩ := List.append_of_mem hcompleted
  obtain ⟨prior, rest, rfl, hprior, hrest⟩ := List.filterMap_eq_append_iff.mp hevents
  obtain ⟨quiet, entry, after, rfl, hquiet, hentry, hafter⟩ := List.filterMap_eq_cons_iff.mp hrest
  have hentry' := Attributed.eq_trySend_of_sentEvent? hentry
  subst hentry'
  rw [← List.append_assoc] at h hconforming
  obtain ⟨live, hlive, rfl, -, hlease, hsends⟩ := h.allows
  obtain ⟨hsent, hdrained, hhealthy, snapshot, hterminal, hevent⟩ := hsends
  have hdelivering := h.of_append.delivering hconforming.of_append live hlive
  have hstate : snapshot.state = .completed := by
    rw [terminalEvent] at hevent
    split at hevent
    · cases hevent
    · assumption
    · cases hevent
    · split at hevent <;> cases hevent
  have hlength : live.acquired.length = (published live.stream).length := by
    rcases hdrained with hzero | hfinal
    · have hrest := hdelivering.completed hhealthy snapshot hterminal hstate
      rwa [hzero, LiveRequest.unread_of_lease_eq_none hlease] at hrest
    · exact hdelivering.final hfinal
  have hacquired : live.acquired = published live.stream :=
    hdelivering.acquired.eq_of_length hlength
  have hsame : events = live.sent := by
    rw [← (h.of_append.attributed.live live hlive).2, sentEvents_append, sentEvents, hprior,
      sentEvents, List.filterMap_eq_nil_iff.mpr hquiet, List.append_nil]
  refine ⟨more, ?_⟩
  rw [hevents, hsame, hsent, LiveRequest.audioEvents, hacquired]

end Streams

/-! ### A pending event -/

/-- The event waits for room in the channel: it is the last chunk, or the event of the terminal
snapshot. -/
structure Blocked (live : LiveRequest) (event : SynthesisEvent) : Prop where
  lease : live.lease = none
  audio : ∀ chunk, event = .audio chunk → live.audioEvents = live.sent ++ [event]
  terminal : event.EndsRequest → live.sent = live.audioEvents ∧ live.Drained ∧
    ∃ snapshot, live.terminal = some snapshot ∧ terminalEvent snapshot = .ok event

section Blocked

variable {live : LiveRequest} {event : SynthesisEvent}

theorem blocked_of_sends (hlease : live.lease = none) (hsends : live.Sends event) :
    Blocked live event := by
  refine ⟨hlease, fun chunk hchunk => ?_, fun hends => ?_⟩
  · subst hchunk
    exact hsends
  · obtain ⟨hsent, hdrained, -, hterminal⟩ := hsends.healthy hends
    exact ⟨hsent, hdrained, hterminal⟩

/-- No chunk is acquired while an event is pending. -/
theorem Blocked.not_acquire (h : Blocked live event) (hkind : ∀ error, event ≠ .runtimeError error)
    (hdrained : ¬ live.Drained) : live.sent ≠ live.audioEvents := by
  intro hsent
  cases event with
  | audio chunk =>
    have haudio := h.audio chunk rfl
    rw [hsent] at haudio
    simp at haudio
  | runtimeError error => exact hkind error rfl
  | completed => exact hdrained (h.terminal trivial).2.1
  | cancelled => exact hdrained (h.terminal trivial).2.1
  | failed error => exact hdrained (h.terminal trivial).2.1

/-- The next event behind a pending one is that event, or reports that the worker has failed. -/
theorem Blocked.eq_of_sends (h : Blocked live event) (hkind : ∀ error, event ≠ .runtimeError error)
    {event' : SynthesisEvent} (hsends : live.Sends event') :
    event' = event ∨ ∃ error, event' = .runtimeError error := by
  by_cases hends : event'.EndsRequest
  · obtain ⟨hsent, -, -, snapshot, hsnapshot, hevent⟩ := hsends.healthy hends
    cases event with
    | audio chunk =>
      have haudio := h.audio chunk rfl
      rw [hsent] at haudio
      simp at haudio
    | runtimeError error => exact absurd rfl (hkind error)
    | _ =>
      obtain ⟨-, -, snapshot', hsnapshot', hevent'⟩ := h.terminal trivial
      rw [hsnapshot] at hsnapshot'
      cases hsnapshot'
      rw [hevent] at hevent'
      cases hevent'
      exact .inl rfl
  · cases event' with
    | runtimeError error => exact .inr ⟨error, rfl⟩
    | audio chunk' =>
      have hall : live.audioEvents = live.sent ++ [.audio chunk'] := hsends
      cases event with
      | audio chunk =>
        have haudio := h.audio chunk rfl
        rw [hall] at haudio
        exact .inl (List.singleton_inj.mp (List.append_cancel_left haudio))
      | runtimeError error => exact absurd rfl (hkind error)
      | completed =>
        rw [← (h.terminal trivial).1] at hall
        simp at hall
      | cancelled =>
        rw [← (h.terminal trivial).1] at hall
        simp at hall
      | failed error =>
        rw [← (h.terminal trivial).1] at hall
        simp at hall
    | _ => exact absurd trivial hends

/-- The event stays pending while nothing is sent. -/
theorem Blocked.step (h : Blocked live event) (hkind : ∀ error, event ≠ .runtimeError error)
    {ledger : WorkerLedger} {live' : LiveRequest}
    {entry : Performed WorkerOperation WorkerOperation.Reply} (hlive : ledger.live = some live)
    (hallows : ledger.Allows entry.1) (hattached : live.attached = true)
    (hquiet : ∀ channel event, entry ≠ ⟨.trySend channel event, .sent⟩)
    (hstep : LiveStep ledger live entry live') : Blocked live' event := by
  have hobserved : ∀ snapshots advertised failing, live.terminal = none → ∀ terminal,
      Blocked { live with snapshots, terminal, advertised, failing } event := by
    intro snapshots advertised failing hrunning terminal
    refine ⟨h.lease, h.audio, fun hends => ?_⟩
    obtain ⟨-, -, snapshot, hterminal, -⟩ := h.terminal hends
    exact nomatch hrunning.symm.trans hterminal
  cases hstep with
  | same hsent hcall => exact h
  | command requestId reply => exact ⟨h.lease, h.audio, h.terminal⟩
  | sent event => exact absurd rfl (hquiet _ event)
  | refused event => exact ⟨h.lease, h.audio, h.terminal⟩
  | detached => exact ⟨h.lease, h.audio, h.terminal⟩
  | cancels handle reply =>
    obtain ⟨live', hlive', -, hrunning, -⟩ := hallows
    cases hlive.symm.trans hlive'
    refine ⟨?_, ?_, fun hends => ?_⟩
    · cases reply <;> exact h.lease
    · cases reply <;> exact h.audio
    · obtain ⟨-, -, snapshot, hterminal, -⟩ := h.terminal hends
      exact nomatch hrunning.symm.trans hterminal
  | polled handle reply =>
    obtain ⟨live', hlive', -, hrunning, -⟩ := hallows
    cases hlive.symm.trans hlive'
    obtain ⟨snapshots, terminal, advertised, failing, heq, -⟩ := live.exists_polled _ reply
    rw [heq]
    exact hobserved snapshots advertised failing hrunning terminal
  | waited handle afterRevision reply =>
    obtain ⟨live', hlive', -, hrunning⟩ := hallows
    cases hlive.symm.trans hlive'
    obtain ⟨snapshots, terminal, advertised, failing, heq, -⟩ :=
      live.exists_waited afterRevision reply
    rw [heq]
    exact hobserved snapshots advertised failing hrunning terminal
  | acquires handle reply =>
    obtain ⟨live', hlive', -, hdrained, hsent⟩ := hallows
    cases hlive.symm.trans hlive'
    exact absurd (hsent hattached) (h.not_acquire hkind hdrained)
  | copies handle raw samples =>
    obtain ⟨live', hlive', -, hlease, -⟩ := hallows
    cases hlive.symm.trans hlive'
    exact nomatch h.lease.symm.trans hlease
  | releases handle leaseId reply =>
    obtain ⟨live', hlive', -, raw, hlease, -⟩ := hallows
    cases hlive.symm.trans hlive'
    exact nomatch h.lease.symm.trans hlease
  | destroyFails handle error => exact ⟨h.lease, h.audio, h.terminal⟩

end Blocked

/-- A stream that an event was tried on is not that of a start command in the worker's hand. -/
theorem Orderly.start_stream_ne {trace : WorkerTrace} (h : Orderly trace) {stream : ℕ}
    {event : SynthesisEvent} {reply : TrySend} (hmem : ⟨.trySend stream event, reply⟩ ∈ trace) :
    stream ∈ receivedStreams trace ∧
      ∀ command, (ledgerOf trace).start = some command → command.stream ≠ stream := by
  have hall : ∀ entry ∈ trace, ∀ event reply, entry = ⟨.trySend stream event, reply⟩ →
      stream ∈ receivedStreams trace ∧
        ∀ command, (ledgerOf trace).start = some command → command.stream ≠ stream := by
    refine Orderly.induction (P := fun trace ledger => ∀ entry ∈ trace, ∀ event reply,
      entry = ⟨.trySend stream event, reply⟩ → stream ∈ receivedStreams trace ∧
        ∀ command, ledger.start = some command → command.stream ≠ stream) nofun ?_ h
    intro trace entry horderly ih tried hmem event reply htried
    by_cases hreceipt : ∃ command, entry = ⟨.tryReceiveStart, .received command⟩
    · obtain ⟨command, rfl⟩ := hreceipt
      have hreceived : receivedStreams (trace ++ [⟨.tryReceiveStart, .received command⟩]) =
          receivedStreams trace ++ [command.stream] := receivedStreams_append _ _
      have hmem' : tried ∈ trace := by
        rcases List.mem_append.mp hmem with hmem | hmem
        · exact hmem
        · exact nomatch (List.mem_singleton.mp hmem).symm.trans htried
      obtain ⟨hstream, -⟩ := ih tried hmem' event reply htried
      refine ⟨?_, ?_⟩
      · rw [hreceived]
        exact List.mem_append_left _ hstream
      · rintro command' hcommand' rfl
        cases hcommand'
        have hnodup := horderly.nodup
        rw [hreceived] at hnodup
        exact List.disjoint_of_nodup_append hnodup hstream (List.mem_singleton_self _)
    · have hnone := Attributed.receivedStream?_eq_none fun command heq => hreceipt ⟨command, heq⟩
      rw [Attributed.receivedStreams_concat_none hnone]
      rcases List.mem_append.mp hmem with hmem | hmem
      · obtain ⟨hstream, hstart⟩ := ih tried hmem event reply htried
        exact ⟨hstream, fun command hcommand => hstart command (start_of_step hnone hcommand)⟩
      · have hentry := (List.mem_singleton.mp hmem).symm.trans htried
        subst hentry
        obtain ⟨live, hlive, rfl, -⟩ := horderly.allows
        have hattributed := horderly.of_append.attributed
        refine ⟨(hattributed.live live hlive).1, fun command hcommand => ?_⟩
        have hcommand' := start_of_step hnone hcommand
        exact ((hattributed.start command hcommand').2.2 live hlive).symm
  exact hall _ hmem event reply rfl

/-- While nothing is sent on the stream, an event that found no room stays pending. -/
theorem Orderly.blocked {before after : WorkerTrace} {stream : ℕ} {event : SynthesisEvent}
    (h : Orderly (before ++ ⟨.trySend stream event, .full⟩ :: after))
    (hkind : ∀ error, event ≠ .runtimeError error) (hquiet : sentEvents after stream = []) :
    ∀ live, (ledgerOf (before ++ ⟨.trySend stream event, .full⟩ :: after)).live = some live →
      live.stream = stream → live.attached = true → Blocked live event := by
  induction after using List.reverseRecOn with
  | nil =>
    intro live hlive hstream hattached
    obtain ⟨live', hlive', hstream', -, hlease, hsends⟩ := h.allows
    rw [ledgerOf_concat] at hlive
    change ((ledgerOf before).reports event).live = some live at hlive
    rw [live_reports, hlive'] at hlive
    cases hlive
    exact blocked_of_sends hlease hsends
  | append_singleton after entry ih =>
    rw [sentEvents_append, List.append_eq_nil_iff] at hquiet
    rw [← List.cons_append, ← List.append_assoc] at h ⊢
    intro live' hlive' hstream hattached
    rw [ledgerOf_concat] at hlive'
    rcases live_step_cases h.allows hlive' with
      ⟨live, hlive, hstep⟩ | ⟨textTokenIds, randomSeed, handle, command, -, -, hstart, rfl⟩
    · have hsame : live.stream = stream := hstep.sameRequest.stream.symm.trans hstream
      have hbefore : live.attached = true := hstep.attached hattached
      have hblocked := ih h.of_append hquiet.1 live hlive hsame hbefore
      refine hblocked.step hkind hlive h.allows hbefore (fun channel event' heq => ?_) hstep
      subst heq
      obtain ⟨live'', hlive'', hchannel, -⟩ := h.allows
      cases hlive.symm.trans hlive''
      have hsent := hquiet.2
      rw [← hchannel, hsame, sentEvents_send_self] at hsent
      cases hsent
    · have htried : ⟨.trySend stream event, .full⟩ ∈
          before ++ ⟨.trySend stream event, .full⟩ :: after :=
        List.mem_append_right _ List.mem_cons_self
      exact absurd hstream ((h.of_append.start_stream_ne htried).2 command hstart)

/-- **A pending event is the next one on its stream**, unless the worker fails. -/
theorem Orderly.next_of_full {before after : WorkerTrace} {stream : ℕ} {event : SynthesisEvent}
    (h : Orderly (before ++ ⟨.trySend stream event, .full⟩ :: after))
    (hkind : ∀ error, event ≠ .runtimeError error) {next : SynthesisEvent}
    {rest : List SynthesisEvent} (hnext : sentEvents after stream = next :: rest) :
    next = event ∨ ∃ error, next = .runtimeError error := by
  obtain ⟨quiet, entry, after', rfl, hquiet, hentry, -⟩ := List.filterMap_eq_cons_iff.mp hnext
  have hentry' := Attributed.eq_trySend_of_sentEvent? hentry
  subst hentry'
  rw [← List.cons_append, ← List.append_assoc] at h
  obtain ⟨live, hlive, hstream, hattached, -, hsends⟩ := h.allows
  have hblocked := h.of_append.blocked hkind (List.filterMap_eq_nil_iff.mpr hquiet) live hlive
    hstream hattached
  exact hblocked.eq_of_sends hkind hsends

/-! ### The connection -/

/-- A shutdown that was received is not forgotten. -/
theorem shutdown_step {ledger : WorkerLedger}
    (entry : Performed WorkerOperation WorkerOperation.Reply) (h : ledger.shutdown = true) :
    (ledger.step entry).shutdown = true := by
  obtain ⟨operation, reply⟩ := entry
  cases operation with
  | tryReceiveControl =>
    rcases reply with (⟨requestId, reply⟩ | reply) | _ | _
    · exact h
    · rfl
    · exact h
    · exact h
  | tryReceiveStart => rcases reply with command | _ | _ <;> exact h
  | replyStart stream result => cases result <;> exact h
  | trySend stream event => cases reply <;> cases event <;> exact h
  | requestStart textTokenIds randomSeed => rcases reply with error | _ | handle <;> exact h
  | requestDestroy handle => cases reply <;> exact h
  | abort resource error => cases reply
  | _ => exact h

theorem shutdown_append {trace : WorkerTrace} (h : (ledgerOf trace).shutdown = true)
    (rest : WorkerTrace) : (ledgerOf (trace ++ rest)).shutdown = true := by
  induction rest using List.reverseRecOn with
  | nil =>
    rw [List.append_nil]
    exact h
  | append_singleton rest entry ih =>
    rw [← List.append_assoc, ledgerOf_concat]
    exact shutdown_step entry ih

/-- An owner of a stream that was found to be gone. -/
theorem Orderly.exists_refused {trace : WorkerTrace} (h : Orderly trace) :
    ∀ live, (ledgerOf trace).live = some live → live.refused = true →
      ∃ event, ⟨.trySend live.stream event, .disconnected⟩ ∈ trace := by
  refine Orderly.live_induction (P := fun trace live => live.refused = true →
    ∃ event, ⟨.trySend live.stream event, .disconnected⟩ ∈ trace)
    (fun _ _ _ _ _ _ _ habsurd => nomatch habsurd) ?_ h
  intro trace entry live live' horderly hlive hstep ih hrefused
  rw [hstep.sameRequest.stream]
  have hold : live.refused = true →
      ∃ event, ⟨.trySend live.stream event, .disconnected⟩ ∈ trace ++ [entry] := by
    intro hrefused
    obtain ⟨event, hmem⟩ := ih hrefused
    exact ⟨event, List.mem_append_left _ hmem⟩
  cases hstep with
  | refused event => exact ⟨event, List.mem_append_right _ (List.mem_singleton_self _)⟩
  | cancels handle reply => cases reply <;> exact hold hrefused
  | polled handle reply =>
    obtain ⟨snapshots, terminal, advertised, failing, heq, -⟩ := live.exists_polled _ reply
    rw [heq] at hrefused
    exact hold hrefused
  | waited handle afterRevision reply =>
    obtain ⟨snapshots, terminal, advertised, failing, heq, -⟩ :=
      live.exists_waited afterRevision reply
    rw [heq] at hrefused
    exact hold hrefused
  | acquires handle reply => rcases reply with error | _ | raw <;> exact hold hrefused
  | releases handle leaseId reply => cases reply <;> exact hold hrefused
  | _ => exact hold hrefused

/-- The request when the worker dropped the sender of its stream. -/
theorem Orderly.exists_detached {trace : WorkerTrace} (h : Orderly trace) :
    ∀ live, (ledgerOf trace).live = some live → live.attached = false →
      ∃ before after live', trace = before ++ ⟨.dropSender live.stream, ()⟩ :: after ∧
        (ledgerOf before).live = some live' ∧ live'.stream = live.stream ∧
        (live'.failing = true → live.failing = true) := by
  refine Orderly.live_induction (P := fun trace live => live.attached = false →
    ∃ before after live', trace = before ++ ⟨.dropSender live.stream, ()⟩ :: after ∧
      (ledgerOf before).live = some live' ∧ live'.stream = live.stream ∧
      (live'.failing = true → live.failing = true))
    (fun _ _ _ _ _ _ _ habsurd => nomatch habsurd) ?_ h
  intro trace entry live live' horderly hlive hstep ih hdetached
  rw [hstep.sameRequest.stream]
  by_cases hattached : live.attached = true
  · cases hstep with
    | detached => exact ⟨trace, [], live, rfl, hlive, rfl, id⟩
    | cancels handle reply => cases reply <;> exact nomatch hattached.symm.trans hdetached
    | polled handle reply =>
      obtain ⟨snapshots, terminal, advertised, failing, heq, -⟩ := live.exists_polled _ reply
      rw [heq] at hdetached
      exact nomatch hattached.symm.trans hdetached
    | waited handle afterRevision reply =>
      obtain ⟨snapshots, terminal, advertised, failing, heq, -⟩ :=
        live.exists_waited afterRevision reply
      rw [heq] at hdetached
      exact nomatch hattached.symm.trans hdetached
    | acquires handle reply =>
      rcases reply with error | _ | raw <;> exact nomatch hattached.symm.trans hdetached
    | releases handle leaseId reply =>
      cases reply <;> exact nomatch hattached.symm.trans hdetached
    | _ => exact nomatch hattached.symm.trans hdetached
  · obtain ⟨before, after, first, rfl, hfirst, hstream, hfailing⟩ := ih (by simpa using hattached)
    refine ⟨before, after ++ [entry], first, ?_, hfirst, hstream,
      fun hfails => hstep.failing (hfailing hfails)⟩
    rw [List.append_assoc]
    rfl

/-- Why the worker has dropped a sender: the owner of the stream is gone, or a shutdown was
received, or a native call had failed. -/
structure ConnectionHolds (channels : WorkerChannels) (trace : WorkerTrace) : Prop where
  refused : ∀ stream event, ⟨.trySend stream event, .disconnected⟩ ∈ trace →
    stream ∉ channels.streams ∧ stream < channels.nextNumber
  detached : ∀ before stream after live, trace = before ++ ⟨.dropSender stream, ()⟩ :: after →
    (ledgerOf before).live = some live → live.stream = stream →
      stream < channels.nextNumber ∧ (stream ∈ channels.streams →
        (ledgerOf before).shutdown = true ∨ live.failing = true)

section Connection

variable {channels channels' : WorkerChannels} {trace : WorkerTrace}

/-- The channels change, and only new streams are added. -/
theorem ConnectionHolds.of_streams (h : ConnectionHolds channels trace)
    (hstreams : ∀ stream ∈ channels'.streams,
      stream ∈ channels.streams ∨ stream = channels.nextNumber)
    (hnext : channels.nextNumber ≤ channels'.nextNumber) : ConnectionHolds channels' trace := by
  have hold : ∀ stream, stream < channels.nextNumber → stream ∈ channels'.streams →
      stream ∈ channels.streams := by
    intro stream hlt hmem
    rcases hstreams stream hmem with hmem | rfl
    · exact hmem
    · exact absurd hlt (Nat.lt_irrefl _)
  refine ⟨fun stream event hmem => ?_, fun before stream after live htrace hlive hstream => ?_⟩
  · obtain ⟨hgone, hlt⟩ := h.refused stream event hmem
    exact ⟨fun hback => hgone (hold stream hlt hback), Nat.lt_of_lt_of_le hlt hnext⟩
  · obtain ⟨hlt, hreason⟩ := h.detached before stream after live htrace hlive hstream
    exact ⟨Nat.lt_of_lt_of_le hlt hnext, fun hmem => hreason (hold stream hlt hmem)⟩

/-- An operation of the worker. -/
theorem ConnectionHolds.concat (h : ConnectionHolds channels trace)
    {entry : Performed WorkerOperation WorkerOperation.Reply}
    (hrefused : ∀ stream event, entry = ⟨.trySend stream event, .disconnected⟩ →
      stream ∉ channels.streams ∧ stream < channels.nextNumber)
    (hdetached : ∀ stream live, entry = ⟨.dropSender stream, ()⟩ →
      (ledgerOf trace).live = some live → live.stream = stream →
        stream < channels.nextNumber ∧ (stream ∈ channels.streams →
          (ledgerOf trace).shutdown = true ∨ live.failing = true)) :
    ConnectionHolds channels (trace ++ [entry]) := by
  refine ⟨fun stream event hmem => ?_, fun before stream after live htrace hlive hstream => ?_⟩
  · rcases List.mem_append.mp hmem with hmem | hmem
    · exact h.refused stream event hmem
    · exact hrefused stream event (List.mem_singleton.mp hmem).symm
  · rcases List.eq_nil_or_concat' after with rfl | ⟨after', last, rfl⟩
    · obtain ⟨rfl, hentry⟩ := List.append_inj' htrace rfl
      exact hdetached stream live (List.singleton_inj.mp hentry) hlive hstream
    · rw [← List.cons_append, ← List.append_assoc] at htrace
      obtain ⟨rfl, -⟩ := List.append_inj' htrace rfl
      exact h.detached before stream after' live rfl hlive hstream

end Connection

/-- The worker neither adds nor removes the owner of a stream. -/
theorem streams_effect (channels : WorkerChannels) (operation : WorkerOperation) :
    (channels.effect operation).streams = channels.streams ∧
      (channels.effect operation).nextNumber = channels.nextNumber := by
  cases operation with
  | trySend stream event =>
    rw [WorkerChannels.effect]
    split <;> exact ⟨rfl, rfl⟩
  | _ => exact ⟨rfl, rfl⟩

/-- A control command adds no stream. -/
theorem streams_sendControl (channels : WorkerChannels) (command : ℕ → ControlCommand)
    (sender : Option ℕ) :
    (channels.sendControl command sender).streams = channels.streams ∧
      channels.nextNumber ≤ (channels.sendControl command sender).nextNumber := by
  rw [WorkerChannels.sendControl]
  split
  · exact ⟨rfl, Nat.le_succ _⟩
  · exact ⟨rfl, Nat.le_refl _⟩

/-- The users only add streams with new numbers. -/
theorem WorkerSystem.streams_user (system : WorkerSystem) {action : WorkerAction}
    (huser : ∀ replies, action ≠ .worker replies) :
    (system.step action).trace = system.trace ∧
      (∀ stream ∈ (system.step action).channels.streams,
        stream ∈ system.channels.streams ∨ stream = system.channels.nextNumber) ∧
      system.channels.nextNumber ≤ (system.step action).channels.nextNumber := by
  have hcontrol : ∀ command sender,
      (∀ stream ∈ (system.channels.sendControl command sender).streams,
        stream ∈ system.channels.streams ∨ stream = system.channels.nextNumber) ∧
      system.channels.nextNumber ≤ (system.channels.sendControl command sender).nextNumber := by
    intro command sender
    obtain ⟨hstreams, hnext⟩ := streams_sendControl system.channels command sender
    refine ⟨fun stream hmem => ?_, hnext⟩
    rw [hstreams] at hmem
    exact .inl hmem
  have hsame : (∀ stream ∈ system.channels.streams,
      stream ∈ system.channels.streams ∨ stream = system.channels.nextNumber) ∧
      system.channels.nextNumber ≤ system.channels.nextNumber :=
    ⟨fun _ hmem => .inl hmem, Nat.le_refl _⟩
  cases action with
  | worker replies => exact absurd rfl (huser replies)
  | synthesize textTokenIds randomSeed =>
    refine ⟨rfl, ?_⟩
    change (∀ stream ∈ (system.channels.sendStart _ _).streams, _) ∧
      _ ≤ (system.channels.sendStart _ _).nextNumber
    rw [WorkerChannels.sendStart]
    split
    · refine ⟨fun stream hmem => ?_, Nat.le_succ _⟩
      rcases List.mem_cons.mp hmem with rfl | hmem
      · exact .inr rfl
      · exact .inl hmem
    · exact hsame
  | cancel stream requestId =>
    rw [step]
    split
    · exact ⟨rfl, hcontrol _ _⟩
    · exact ⟨rfl, hsame⟩
  | shutdown =>
    rw [step]
    split
    · exact ⟨rfl, hcontrol _ _⟩
    · exact ⟨rfl, hsame⟩
  | notify wake =>
    refine ⟨rfl, ?_⟩
    change (∀ stream ∈ (system.channels.notifyWorker wake).streams, _) ∧
      _ ≤ (system.channels.notifyWorker wake).nextNumber
    rw [WorkerChannels.notifyWorker]
    split <;> exact hsame
  | receive stream =>
    refine ⟨rfl, ?_⟩
    change (∀ stream' ∈ (system.channels.receiveEvent stream).streams, _) ∧
      _ ≤ (system.channels.receiveEvent stream).nextNumber
    rw [WorkerChannels.receiveEvent]
    split <;> exact hsame
  | dropStream stream =>
    refine ⟨rfl, ?_⟩
    change (∀ stream' ∈ (system.channels.dropStream stream).streams, _) ∧
      _ ≤ (system.channels.dropStream stream).nextNumber
    rw [WorkerChannels.dropStream]
    split
    · exact hsame
    · exact ⟨fun stream' hmem => .inl (List.mem_of_mem_filter hmem), Nat.le_refl _⟩
  | dropWorker =>
    refine ⟨rfl, ?_⟩
    change (∀ stream' ∈ system.channels.dropWorker.streams, _) ∧
      _ ≤ system.channels.dropWorker.nextNumber
    rw [WorkerChannels.dropWorker]
    split <;> exact hsame

/-- The channels and the trace behind a step of the worker. -/
theorem WorkerSystem.connectionHolds_worker {system : WorkerSystem} {replies : NativeReplies}
    (h : ConnectionHolds system.channels system.trace)
    (horderly : Orderly (system.workerStep replies).trace)
    (hchannels : ChannelsHold system.channels system.trace)
    (hwakes : WakesHold system.channels (ledgerOf system.trace)) :
    ConnectionHolds (system.workerStep replies).channels (system.workerStep replies).trace := by
  rcases workerStep_cases system replies with ⟨phase, -, hstep⟩ | ⟨operation, next, -, -, hstep⟩ |
    ⟨operation, next, reply, -, hanswer, hstep⟩
  · rw [hstep]
    exact h
  · rw [hstep]
    exact h
  rw [hstep] at horderly ⊢
  change Orderly (system.trace ++ [⟨operation, reply⟩]) at horderly
  change ConnectionHolds (system.channels.effect operation) (system.trace ++ [⟨operation, reply⟩])
  have hbelow : ∀ live, (ledgerOf system.trace).live = some live →
      live.stream < system.channels.nextNumber := fun live hlive =>
    hchannels.below live.stream (List.mem_append_left _
      (horderly.of_append.attributed.live live hlive).1)
  have hconcat : ConnectionHolds system.channels (system.trace ++ [⟨operation, reply⟩]) := by
    refine h.concat (fun stream event heq => ?_) fun stream live heq hlive hstream => ?_
    · cases heq
      obtain ⟨live, hlive, rfl, -⟩ := horderly.allows
      refine ⟨fun hmem => ?_, hbelow live hlive⟩
      rw [WorkerChannels.answer, if_pos hmem] at hanswer
      split at hanswer <;> cases hanswer
    · cases heq
      subst hstream
      refine ⟨hbelow live hlive, fun hmem => ?_⟩
      rcases horderly.allows live hlive rfl with hrefused | hfailing | hshutdown | ⟨hgone, -⟩
      · obtain ⟨event, htried⟩ := horderly.of_append.exists_refused live hlive hrefused
        exact absurd hmem (h.refused _ event htried).1
      · exact .inr hfailing
      · exact .inl hshutdown
      · rw [(WakesHold.of_hasSenders_eq_false (hwakes.controlsGone hgone).2).2] at hmem
        cases hmem
  obtain ⟨hstreams, hnext⟩ := streams_effect system.channels operation
  refine hconcat.of_streams (fun stream hmem => ?_) (Nat.le_of_eq hnext.symm)
  rw [hstreams] at hmem
  exact .inl hmem

/-- **Why the worker has dropped a sender, in every interleaving.** -/
theorem WorkerSystem.connectionHolds_run (actions : List WorkerAction) :
    ConnectionHolds (run step initial actions).channels (run step initial actions).trace := by
  induction actions using List.reverseRecOn with
  | nil => exact ⟨fun _ _ habsurd => (nomatch habsurd), fun before _ _ _ habsurd => by
      cases before <;> cases habsurd⟩
  | append_singleton actions action ih =>
    have horderly := orderly_run (actions ++ [action])
    rw [run_concat] at horderly ⊢
    by_cases hworker : ∃ replies, action = .worker replies
    · obtain ⟨replies, rfl⟩ := hworker
      exact connectionHolds_worker ih horderly (channelsHold_run actions) (wakesHold_run actions)
    · obtain ⟨htrace, hstreams, hnext⟩ := (run step initial actions).streams_user
        fun replies heq => hworker ⟨replies, heq⟩
      rw [htrace]
      exact ih.of_streams hstreams hnext

/-! ### The streams of every interleaving -/

/-- What the streams of the worker carry, when the native library publishes the chunks. While the
owner of a stream is connected, no shutdown was received and no native call on the request has
failed, all acquired chunks were sent, but for a pending one; and a stream is completed behind all
published chunks. -/
structure AudioDelivered (published : ℕ → List OwnedAudioChunk) (system : WorkerSystem) : Prop where
  order : ∀ stream, system.channels.delivered stream ++ system.channels.events stream =
    sentEvents system.trace stream
  chunks : ∀ stream, audioChunks (sentEvents system.trace stream) <+: published stream
  completed : ∀ stream, .completed ∈ sentEvents system.trace stream →
    ∃ rest, sentEvents system.trace stream = (published stream).map .audio ++ .completed :: rest
  connected : ∀ live, (ledgerOf system.trace).live = some live →
    live.stream ∈ system.channels.streams → (ledgerOf system.trace).shutdown = false →
      live.failing = false → live.Delivered ∧ sentEvents system.trace live.stream = live.sent ∧
        live.acquired <+: published live.stream
  finished : ∀ before after live,
    system.trace = before ++ ⟨.requestDestroy live.handle, .ok ()⟩ :: after →
      (ledgerOf before).live = some live → live.stream ∈ system.channels.streams →
        (ledgerOf system.trace).shutdown = false → live.failing = false →
          ∃ event, event.EndsRequest ∧ sentEvents before live.stream = live.audioEvents ++ [event]
  pending : ∀ before stream event after next rest,
    system.trace = before ++ ⟨.trySend stream event, .full⟩ :: after →
      (∀ error, event ≠ .runtimeError error) → sentEvents after stream = next :: rest →
        next = event ∨ ∃ error, next = .runtimeError error
  leases : ∃ state, NativeProtocol (nativeCalls system.trace) state

/-- A stream that still has its owner has its sender, unless a shutdown was received or the request
fails. -/
theorem ConnectionHolds.attached {channels : WorkerChannels} {before after : WorkerTrace}
    (h : ConnectionHolds channels (before ++ after)) (horderly : Orderly (before ++ after))
    {live : LiveRequest} (hlive : (ledgerOf before).live = some live)
    (hmem : live.stream ∈ channels.streams)
    (hshutdown : (ledgerOf (before ++ after)).shutdown = false) (hhealthy : live.failing = false) :
    live.attached = true := by
  by_contra hdetached
  obtain ⟨first, middle, old, rfl, hold, hstream, hfailing⟩ :=
    horderly.of_append.exists_detached live hlive (by simpa using hdetached)
  rw [List.append_assoc, List.cons_append] at h hshutdown
  obtain ⟨-, hreason⟩ := h.detached first live.stream (middle ++ after) old rfl hold hstream
  rcases hreason hmem with hreceived | hfails
  · exact nomatch hshutdown.symm.trans (shutdown_append hreceived _)
  · exact nomatch hhealthy.symm.trans (hfailing hfails)

/-- **The audio of every interleaving with a conforming native library.** -/
theorem audioDelivered_run (published : ℕ → List OwnedAudioChunk) (actions : List WorkerAction)
    (hconforming : ConformingTrace published (run WorkerSystem.step .initial actions).trace) :
    AudioDelivered published (run WorkerSystem.step .initial actions) := by
  have h := orderly_run actions
  have hconnection := WorkerSystem.connectionHolds_run actions
  refine ⟨(WorkerSystem.channelsHold_run actions).fifo, h.audioChunks_prefix hconforming,
    fun stream => h.completed_of_mem hconforming, ?_, ?_, ?_, ⟨_, h.nativeProtocol⟩⟩
  · intro live hlive hmem hshutdown hhealthy
    have hdelivering := h.delivering hconforming live hlive
    have hattached : live.attached = true := by
      rw [← List.append_nil (run WorkerSystem.step .initial actions).trace]
        at h hconnection hshutdown
      exact hconnection.attached h hlive hmem hshutdown hhealthy
    exact ⟨hdelivering.delivered hattached hhealthy, (h.attributed.live live hlive).2,
      hdelivering.acquired⟩
  · intro before after live htrace hlive hmem hshutdown hhealthy
    rw [htrace] at h hconnection hshutdown
    have hattached := hconnection.attached h hlive hmem hshutdown hhealthy
    obtain ⟨live', hlive', -, hfailing | ⟨-, snapshot, -, hended⟩⟩ := h.allows
    · cases hlive.symm.trans hlive'
      exact nomatch hhealthy.symm.trans hfailing
    · cases hlive.symm.trans hlive'
      obtain ⟨event, hevent, hsent⟩ := hended hattached
      refine ⟨event, endsRequest_of_terminalEvent hevent, ?_⟩
      rw [(h.of_append.attributed.live live hlive).2, hsent]
  · intro before stream event after next rest htrace hkind hnext
    rw [htrace] at h
    exact h.next_of_full hkind hnext

/-! ### A synthesis of two chunks -/

/-- A lease of one codec frame. -/
def frameLease (sequence : ℕ) : AudioLeaseV1 where
  structSize := audioLeaseSize
  abiVersion := abiVersion1
  leaseId := sequence + 1
  samples := 4096
  sampleCount := codecFrameSamples
  firstSampleIndex := codecFrameSamples * sequence
  sequence
  sampleRateHz := streamingSampleRateHz
  channels := 1
  format := pcmFormatF32Mono
  flags := if sequence = 0 then audioFlagFirst else 0
  committedTextTokens := 0
  alignmentEvents := 0
  alignmentEventCount := 0
  reserved := [0, 0]
  eventMemory := []

/-- The chunk of the lease. -/
def frameChunk (sequence : ℕ) : OwnedAudioChunk :=
  LiveRequest.chunkOf (frameLease sequence) ((List.range codecFrameSamples).map fun _ => 0)

/-- A native library that shows the snapshot and the lease. -/
def frameReplies (snapshot : PublicSnapshot) (sequence : ℕ) : NativeReplies where
  start := .ok 1
  cancel := .ok ()
  poll := .ok snapshot
  wait := .ok (some snapshot)
  acquire := .ok (some (frameLease sequence))
  memory := fun _ => 0
  release := .ok ()
  destroy := .ok ()

/-- Steps of the worker. -/
def workerSteps (count : ℕ) (snapshot : PublicSnapshot) (sequence : ℕ) : List WorkerAction :=
  List.replicate count (.worker (frameReplies snapshot sequence))

/-- A synthesis whose owner receives two chunks and the end. -/
def deliveredActions : List WorkerAction :=
  [.synthesize [7] 0, .notify ⟨0, some 0⟩] ++ workerSteps 16 (healthySnapshot 1 .running 2) 0 ++
    [.receive 0] ++ workerSteps 8 (healthySnapshot 1 .running 2) 1 ++ [.receive 0] ++
    workerSteps 10 (healthySnapshot 2 .completed 0) 2 ++ [.receive 0]

theorem conformingTrace_deliveredActions :
    ConformingTrace (fun _ => [frameChunk 0, frameChunk 1])
      (run WorkerSystem.step .initial deliveredActions).trace := by
  repeat' apply And.intro
  all_goals first
    | exact trivial
    | (intro hstate; cases hstate; done)
    | (intro _ live hlive; cases hlive; rfl)
    | (intro live hlive; cases hlive; exact ⟨rfl, fun hflag => absurd rfl hflag⟩)

/-- A synthesis that was delivered as a whole. -/
theorem audioDelivered_run_two_chunks :
    AudioDelivered (fun _ => [frameChunk 0, frameChunk 1])
        (run WorkerSystem.step .initial deliveredActions) ∧
      (run WorkerSystem.step .initial deliveredActions).channels.delivered 0 =
        [.audio (frameChunk 0), .audio (frameChunk 1), .completed] :=
  ⟨audioDelivered_run _ deliveredActions conformingTrace_deliveredActions, rfl⟩

/-- A synthesis whose owner has not taken the first chunk when the worker is shut down, up to the
destruction of the request. -/
def shutdownActions : List WorkerAction :=
  [.synthesize [7] 0, .notify ⟨0, some 0⟩] ++ workerSteps 15 (healthySnapshot 1 .running 2) 0 ++
    workerSteps 9 (healthySnapshot 1 .running 2) 1 ++ [.shutdown, .notify ⟨1, none⟩] ++
    workerSteps 8 (healthySnapshot 2 .cancelled 0) 2

theorem conformingTrace_shutdownActions :
    ConformingTrace (fun _ => [frameChunk 0, frameChunk 1])
      (run WorkerSystem.step .initial
        (shutdownActions ++ workerSteps 1 (healthySnapshot 2 .cancelled 0) 2)).trace := by
  repeat' apply And.intro
  all_goals first
    | exact trivial
    | (intro hstate; cases hstate; done)
    | (intro live hlive; cases hlive; exact ⟨rfl, fun hflag => absurd rfl hflag⟩)

/-- **A chunk that a shutdown loses**, though the owner of the stream is still connected. -/
theorem not_delivered_shutdown :
    ¬ ∀ (published : ℕ → List OwnedAudioChunk) (actions : List WorkerAction)
      (before after : WorkerTrace) (live : LiveRequest),
      ConformingTrace published (run WorkerSystem.step .initial actions).trace →
      (run WorkerSystem.step .initial actions).trace =
        before ++ ⟨.requestDestroy live.handle, .ok ()⟩ :: after →
      (ledgerOf before).live = some live →
      live.stream ∈ (run WorkerSystem.step .initial actions).channels.streams →
      live.failing = false → audioChunks (sentEvents before live.stream) = live.acquired := by
  intro h
  obtain ⟨live, hlive, hhandle, hstream, hhealthy, hacquired⟩ : ∃ live,
      (ledgerOf (run WorkerSystem.step .initial shutdownActions).trace).live = some live ∧
        live.handle = 1 ∧ live.stream = 0 ∧ live.failing = false ∧
        live.acquired = [frameChunk 0, frameChunk 1] := ⟨_, rfl, rfl, rfl, rfl, rfl⟩
  have hall := h (fun _ => [frameChunk 0, frameChunk 1])
    (shutdownActions ++ workerSteps 1 (healthySnapshot 2 .cancelled 0) 2)
    (run WorkerSystem.step .initial shutdownActions).trace [] live
    conformingTrace_shutdownActions (by rw [hhandle]; rfl) hlive
    (by rw [hstream]; exact List.mem_singleton_self 0) hhealthy
  rw [hstream, hacquired] at hall
  have hsent : audioChunks (sentEvents (run WorkerSystem.step .initial shutdownActions).trace 0) =
    [frameChunk 0] := rfl
  rw [hsent] at hall
  exact absurd (congrArg List.length hall) (by decide)

end MagpieTts.Rust
