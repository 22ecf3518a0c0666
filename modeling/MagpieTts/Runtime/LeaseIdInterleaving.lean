import Mathlib.Data.List.Basic
import Mathlib.Logic.Function.Basic
import MagpieTts.Library.Run
import MagpieTts.Runtime.MachineWords
import MagpieTts.Runtime.RequestState

/-!
# Lease identifiers under contention

Any number of threads call `LeaseIdSequence::acquire` at once. A call loads the counter, tests the
value it has seen, and tries to exchange it for its successor; the scheduler picks whose step comes
next. A load, also the one of a failed exchange, is relaxed and may return any value the counter has
had. An exchange that succeeds acts on the latest value, and a weak one may fail without a reason.

## Main definitions

* `LeaseIdSequence.construct`: the constructor of the sequence.
* `AtomicCounter`: the counter together with the values it has had.
* `CallPoint`, `AcquireAction`: where a call stands, and the steps it takes.
* `AcquireSystem.step`: one step of one call.
* `AcquireSystem.Invariant`: what holds between any two steps.

## Main results

* `step_eq_acquire`: an exchange that succeeds is a step of the sequence in one piece.
* `invariant_run`: every interleaving keeps the invariant.
* `extends_run`: the counter never goes back, and an identifier handed out in a run is not below the
  value that the counter had at its start.
* `run_calls_of_maximum`: at the maximum every call goes its way on its own.
* `acquire_never_reuses`: the identifiers are distinct and grow, and the maximum is final.
-/

namespace MagpieTts.Runtime

open MagpieTts.Library

/-- The constructor of `LeaseIdSequence`. -/
def LeaseIdSequence.construct (initialValue : ℕ) : Except String LeaseIdSequence :=
  if initialValue = 0 then .error "lease identifier sequence must start above zero"
  else .ok ⟨initialValue⟩

theorem LeaseIdSequence.construct_eq_ok_iff {initialValue : ℕ} {ids : LeaseIdSequence} :
    LeaseIdSequence.construct initialValue = .ok ids ↔
      0 < initialValue ∧ ids = ⟨initialValue⟩ := by
  unfold LeaseIdSequence.construct
  split_ifs with hzero
  · simp [hzero]
  · rw [Except.ok.injEq, eq_comm]
    exact ⟨fun h => ⟨Nat.pos_of_ne_zero hzero, h⟩, fun h => h.2⟩

/-- What a call that finds no identifier left reports. -/
def leaseSequenceExhausted : RequestStateError :=
  ⟨.leaseSequenceExhausted, "process-wide lease identifier sequence is exhausted", -1⟩

/-- `next_`: the latest value and the overwritten ones, the last of them first. -/
structure AtomicCounter where
  next : ℕ
  overwritten : List ℕ

/-- What a relaxed load returns that sees the value of `age` stores ago. -/
def AtomicCounter.load (counter : AtomicCounter) : ℕ → ℕ
  | 0 => counter.next
  | age + 1 => counter.overwritten.getD age counter.next

/-- The counter after a store of `value`. -/
def AtomicCounter.store (counter : AtomicCounter) (value : ℕ) : AtomicCounter :=
  ⟨value, counter.next :: counter.overwritten⟩

theorem AtomicCounter.load_mem (counter : AtomicCounter) (age : ℕ) :
    counter.load age = counter.next ∨ counter.load age ∈ counter.overwritten := by
  cases age with
  | zero => exact Or.inl rfl
  | succ age =>
    rw [load, List.getD_eq_getElem?_getD]
    rcases Nat.lt_or_ge age counter.overwritten.length with hage | hage
    · rw [List.getElem?_eq_getElem hage]
      exact Or.inr (List.getElem_mem hage)
    · rw [List.getElem?_eq_none hage]
      exact Or.inl rfl

/-- Where a call of `acquire` stands: before it, before the first load, before the test of a
candidate, before the exchange, after it. -/
inductive CallPoint where
  | notStarted
  | entered
  | loaded (candidate : ℕ)
  | tested (candidate : ℕ)
  | finished (outcome : Except RequestStateError ℕ)

/-- The steps of a call. A load and a failed exchange see the value of `age` stores ago; an exchange
may fail although it finds its candidate. -/
inductive AcquireAction (κ : Type*) where
  | start (call : κ)
  | load (call : κ) (age : ℕ)
  | test (call : κ)
  | exchange (call : κ) (spurious : Bool) (age : ℕ)
  deriving DecidableEq

variable {κ : Type*}

/-- The call whose step it is. -/
def AcquireAction.call : AcquireAction κ → κ
  | start call | load call _ | test call | exchange call _ _ => call

/-- The step a call takes within `acquire`. A step that is not the next one does nothing. -/
def CallPoint.advance (counter : AtomicCounter) : CallPoint → AcquireAction κ → CallPoint
  | notStarted, .start _ => entered
  | entered, .load _ age => loaded (counter.load age)
  | loaded candidate, .test _ =>
      if candidate = 0 ∨ candidate = maximumUint64 then finished (.error leaseSequenceExhausted)
      else tested candidate
  | tested candidate, .exchange _ spurious age =>
      if candidate = counter.next ∧ spurious = false then finished (.ok candidate)
      else loaded (counter.load age)
  | point, _ => point

/-- What the step of a call does to the counter: an exchange that succeeds stores the successor of
the candidate. -/
def AtomicCounter.advance (counter : AtomicCounter) :
    CallPoint → AcquireAction κ → AtomicCounter
  | .tested candidate, .exchange _ spurious _ =>
      if candidate = counter.next ∧ spurious = false then counter.store (addUint64 candidate 1)
      else counter
  | _, _ => counter

/-- The counter and the calls of all threads. -/
structure AcquireSystem (κ : Type*) where
  counter : AtomicCounter
  calls : κ → CallPoint

namespace AcquireSystem

/-- A sequence that no call has used. -/
def initial (ids : LeaseIdSequence) : AcquireSystem κ where
  counter := ⟨ids.next, []⟩
  calls := fun _ => .notStarted

/-! ### What the step of a call can do -/

/-- The steps of a call that leave the counter alone. -/
inductive LocalStep (counter : AtomicCounter) : CallPoint → CallPoint → Prop
  | stay (point : CallPoint) : LocalStep counter point point
  | start : LocalStep counter .notStarted .entered
  | load (age : ℕ) : LocalStep counter .entered (.loaded (counter.load age))
  | exhausted {candidate : ℕ} (hlimit : candidate = 0 ∨ candidate = maximumUint64) :
      LocalStep counter (.loaded candidate) (.finished (.error leaseSequenceExhausted))
  | test {candidate : ℕ} (hlimit : ¬ (candidate = 0 ∨ candidate = maximumUint64)) :
      LocalStep counter (.loaded candidate) (.tested candidate)
  | reload (candidate age : ℕ) :
      LocalStep counter (.tested candidate) (.loaded (counter.load age))

/-- A step is local to its call, or it exchanges the latest value for its successor. -/
theorem advance_cases (counter : AtomicCounter) (point : CallPoint) (a : AcquireAction κ) :
    counter.advance point a = counter ∧ LocalStep counter point (point.advance counter a) ∨
      point = .tested counter.next ∧
        counter.advance point a = counter.store (addUint64 counter.next 1) ∧
        point.advance counter a = .finished (.ok counter.next) := by
  cases point <;> cases a
  case notStarted.start => exact Or.inl ⟨rfl, .start⟩
  case entered.load call age => exact Or.inl ⟨rfl, .load age⟩
  case loaded.test candidate call =>
    refine Or.inl ⟨rfl, ?_⟩
    by_cases hlimit : candidate = 0 ∨ candidate = maximumUint64
    · rw [CallPoint.advance, if_pos hlimit]
      exact .exhausted hlimit
    · rw [CallPoint.advance, if_neg hlimit]
      exact .test hlimit
  case tested.exchange candidate call spurious age =>
    by_cases hexchange : candidate = counter.next ∧ spurious = false
    · obtain ⟨rfl, rfl⟩ := hexchange
      exact Or.inr ⟨rfl, if_pos ⟨rfl, rfl⟩, if_pos ⟨rfl, rfl⟩⟩
    · refine Or.inl ⟨if_neg hexchange, ?_⟩
      rw [CallPoint.advance, if_neg hexchange]
      exact .reload candidate age
  all_goals exact Or.inl ⟨rfl, .stay _⟩

/-! ### The invariant -/

/-- A value that the counter has had since it was constructed. -/
def Seen (initialValue : ℕ) (counter : AtomicCounter) (value : ℕ) : Prop :=
  initialValue ≤ value ∧ value ≤ counter.next

/-- What holds of a call's point: a candidate is a value of the counter, a tested one is not the
maximum, an identifier handed out lies behind the counter, and a failure is exhaustion. -/
def PointMeets (initialValue : ℕ) (counter : AtomicCounter) : CallPoint → Prop
  | .loaded candidate => Seen initialValue counter candidate
  | .tested candidate => Seen initialValue counter candidate ∧ candidate ≠ maximumUint64
  | .finished (.ok leaseId) => initialValue ≤ leaseId ∧ leaseId < counter.next
  | .finished (.error error) => error = leaseSequenceExhausted
  | _ => True

/-- The counter stays in its range, it has only had smaller values, each call's point fits it, and
the identifiers handed out are those behind the counter, each to one call. -/
structure Invariant (initialValue : ℕ) (s : AcquireSystem κ) : Prop where
  next_le : s.counter.next ≤ maximumUint64
  initial_le : initialValue ≤ s.counter.next
  overwritten : ∀ value ∈ s.counter.overwritten, Seen initialValue s.counter value
  points : ∀ c, PointMeets initialValue s.counter (s.calls c)
  distinct : ∀ {c d leaseId}, s.calls c = .finished (.ok leaseId) →
    s.calls d = .finished (.ok leaseId) → c = d
  handed_out : ∀ {leaseId}, initialValue ≤ leaseId → leaseId < s.counter.next →
    ∃ c, s.calls c = .finished (.ok leaseId)

theorem invariant_initial {initialValue : ℕ} (hrange : initialValue ≤ maximumUint64) :
    Invariant initialValue (initial ⟨initialValue⟩ : AcquireSystem κ) where
  next_le := hrange
  initial_le := Nat.le_refl initialValue
  overwritten := fun _ hmem => nomatch hmem
  points := fun _ => trivial
  distinct := fun h => nomatch h
  handed_out := fun hlow hhigh => absurd hhigh (Nat.not_lt.mpr hlow)

theorem Invariant.load_seen {initialValue : ℕ} {s : AcquireSystem κ}
    (hs : Invariant initialValue s) (age : ℕ) :
    Seen initialValue s.counter (s.counter.load age) := by
  rcases s.counter.load_mem age with hlatest | hold
  · rw [hlatest]
    exact ⟨hs.initial_le, Nat.le_refl _⟩
  · exact hs.overwritten _ hold

/-- A step within a call leads from a point that fits the counter to another. -/
theorem LocalStep.meets {initialValue : ℕ} {s : AcquireSystem κ} {p q : CallPoint}
    (hstep : LocalStep s.counter p q) (hs : Invariant initialValue s)
    (hp : PointMeets initialValue s.counter p) : PointMeets initialValue s.counter q := by
  cases hstep with
  | stay => exact hp
  | start => trivial
  | load age => exact hs.load_seen age
  | exhausted hlimit => rfl
  | test hlimit => exact ⟨hp, fun hmaximum => hlimit (Or.inr hmaximum)⟩
  | reload candidate age => exact hs.load_seen age

/-- Only an exchange hands out an identifier. -/
theorem LocalStep.eq_of_returned {counter : AtomicCounter} {p : CallPoint} {leaseId : ℕ}
    (hstep : LocalStep counter p (.finished (.ok leaseId))) : p = .finished (.ok leaseId) := by
  cases hstep
  rfl

/-- A call that has an identifier has finished. -/
theorem LocalStep.eq_of_finished {counter : AtomicCounter} {q : CallPoint}
    {outcome : Except RequestStateError ℕ} (hstep : LocalStep counter (.finished outcome) q) :
    q = .finished outcome := by
  cases hstep
  rfl

/-- The points of the other calls fit a counter that has moved on. -/
theorem PointMeets.mono {initialValue : ℕ} {counter later : AtomicCounter} {p : CallPoint}
    (hp : PointMeets initialValue counter p) (hle : counter.next ≤ later.next) :
    PointMeets initialValue later p := by
  cases p with
  | notStarted => trivial
  | entered => trivial
  | loaded candidate => exact ⟨hp.1, Nat.le_trans hp.2 hle⟩
  | tested candidate => exact ⟨⟨hp.1.1, Nat.le_trans hp.1.2 hle⟩, hp.2⟩
  | finished outcome =>
    cases outcome with
    | error _ => exact hp
    | ok leaseId => exact ⟨hp.1, Nat.lt_of_lt_of_le hp.2 hle⟩

/-! ### The steps of all calls -/

variable [DecidableEq κ]

/-- The system after a step that leaves `counter` and brings the call `c` to `point`. -/
def move (s : AcquireSystem κ) (counter : AtomicCounter) (c : κ) (point : CallPoint) :
    AcquireSystem κ :=
  ⟨counter, Function.update s.calls c point⟩

@[simp] theorem move_counter (s : AcquireSystem κ) (counter : AtomicCounter) (c : κ)
    (point : CallPoint) : (s.move counter c point).counter = counter := rfl

@[simp] theorem move_calls_self (s : AcquireSystem κ) (counter : AtomicCounter) (c : κ)
    (point : CallPoint) : (s.move counter c point).calls c = point :=
  Function.update_self ..

theorem move_calls_of_ne (s : AcquireSystem κ) (counter : AtomicCounter) {c d : κ} (hne : d ≠ c)
    (point : CallPoint) : (s.move counter c point).calls d = s.calls d :=
  Function.update_of_ne hne ..

/-- One step of one call. -/
def step (s : AcquireSystem κ) (a : AcquireAction κ) : AcquireSystem κ :=
  s.move (s.counter.advance (s.calls a.call) a) a.call ((s.calls a.call).advance s.counter a)

/-- A step is local to its call, or it hands out the latest value, which is not the maximum. -/
theorem step_cases {initialValue : ℕ} {s : AcquireSystem κ} (hs : Invariant initialValue s)
    (a : AcquireAction κ) :
    (∃ q, LocalStep s.counter (s.calls a.call) q ∧
        s.step a = s.move s.counter a.call q) ∨
      (s.calls a.call = .tested s.counter.next ∧ s.counter.next < maximumUint64 ∧
        s.step a = s.move (s.counter.store (s.counter.next + 1)) a.call
          (.finished (.ok s.counter.next))) := by
  rcases advance_cases s.counter (s.calls a.call) a with
    ⟨hcounter, hlocal⟩ | ⟨hp, hcounter, hq⟩
  · exact Or.inl ⟨_, hlocal, by rw [step, hcounter]⟩
  · have hpoint := hs.points a.call
    rw [hp] at hpoint
    have hlt : s.counter.next < maximumUint64 := Nat.lt_of_le_of_ne hs.next_le hpoint.2
    rw [addUint64_eq hlt] at hcounter
    exact Or.inr ⟨hp, hlt, by rw [step, hcounter, hq]⟩

/-- An exchange that succeeds is a step of the sequence in one piece: it returns what `acquire`
returns on the latest value and leaves what `acquire` leaves. -/
theorem step_eq_acquire {initialValue : ℕ} {s : AcquireSystem κ} (hs : Invariant initialValue s)
    (hpositive : 0 < initialValue) {a : AcquireAction κ}
    (hexchange : (s.step a).counter.next ≠ s.counter.next) :
    ∃ outcome, (s.step a).calls a.call = .finished outcome ∧
      LeaseIdSequence.acquire ⟨s.counter.next⟩ = (outcome, ⟨(s.step a).counter.next⟩) := by
  rcases step_cases hs a with ⟨q, -, hstep⟩ | ⟨-, hlt, hstep⟩
  · rw [hstep] at hexchange
    exact absurd rfl hexchange
  · have havailable : ¬ LeaseIdSequence.Exhausted ⟨s.counter.next⟩ := by
      rintro (hzero | hmaximum)
      · exact absurd hs.initial_le (by rw [show s.counter.next = 0 from hzero]; omega)
      · exact absurd hmaximum (Nat.ne_of_lt hlt)
    refine ⟨.ok s.counter.next, ?_, ?_⟩
    · rw [hstep, move_calls_self]
    · rw [LeaseIdSequence.acquire, if_neg havailable, hstep]
      rfl

/-- The invariant after a step that is local to its call. -/
theorem Invariant.update {initialValue : ℕ} {s : AcquireSystem κ} (hs : Invariant initialValue s)
    {c : κ} {q : CallPoint} (hlocal : LocalStep s.counter (s.calls c) q) :
    Invariant initialValue (s.move s.counter c q) := by
  -- the calls with an identifier are the same before and after
  have hreturned (d : κ) (leaseId : ℕ) : (s.move s.counter c q).calls d = .finished (.ok leaseId) ↔
      s.calls d = .finished (.ok leaseId) := by
    rcases eq_or_ne d c with rfl | hne
    · rw [move_calls_self]
      refine ⟨fun h => (h ▸ hlocal).eq_of_returned, fun h => ?_⟩
      rw [h] at hlocal
      exact hlocal.eq_of_finished
    · rw [move_calls_of_ne _ _ hne]
  refine ⟨hs.next_le, hs.initial_le, hs.overwritten, fun d => ?_, fun hc hd => ?_,
    fun hlow hhigh => ?_⟩
  · rcases eq_or_ne d c with rfl | hne
    · rw [move_calls_self]
      exact hlocal.meets hs (hs.points d)
    · rw [move_calls_of_ne _ _ hne]
      exact hs.points d
  · exact hs.distinct ((hreturned _ _).mp hc) ((hreturned _ _).mp hd)
  · obtain ⟨d, hd⟩ := hs.handed_out hlow hhigh
    exact ⟨d, (hreturned d _).mpr hd⟩

/-- The invariant after an exchange that succeeds. -/
theorem Invariant.exchange {initialValue : ℕ} {s : AcquireSystem κ} (hs : Invariant initialValue s)
    {c : κ} (hpoint : s.calls c = .tested s.counter.next) (hlt : s.counter.next < maximumUint64) :
    Invariant initialValue (s.move (s.counter.store (s.counter.next + 1)) c
      (.finished (.ok s.counter.next))) := by
  have hgrown : s.counter.next ≤ (s.counter.store (s.counter.next + 1)).next := Nat.le_succ _
  -- an identifier handed out before lies behind the old value
  have hbefore {d : κ} {leaseId : ℕ} (h : s.calls d = .finished (.ok leaseId)) :
      leaseId < s.counter.next := by
    have := hs.points d
    rw [h] at this
    exact this.2
  have hcases {d : κ} {leaseId : ℕ}
      (h : (s.move (s.counter.store (s.counter.next + 1)) c
        (.finished (.ok s.counter.next))).calls d = .finished (.ok leaseId)) :
      d = c ∧ leaseId = s.counter.next ∨ d ≠ c ∧ s.calls d = .finished (.ok leaseId) := by
    rcases eq_or_ne d c with rfl | hne
    · rw [move_calls_self, CallPoint.finished.injEq, Except.ok.injEq] at h
      exact Or.inl ⟨rfl, h.symm⟩
    · rw [move_calls_of_ne _ _ hne] at h
      exact Or.inr ⟨hne, h⟩
  refine ⟨hlt, Nat.le_trans hs.initial_le hgrown, ?_, fun d => ?_, fun hc hd => ?_,
    fun {leaseId} hlow hhigh => ?_⟩
  · intro value hmem
    rcases List.mem_cons.mp hmem with rfl | hold
    · exact ⟨hs.initial_le, hgrown⟩
    · exact ⟨(hs.overwritten value hold).1, Nat.le_trans (hs.overwritten value hold).2 hgrown⟩
  · rcases eq_or_ne d c with rfl | hne
    · rw [move_calls_self]
      exact ⟨hs.initial_le, Nat.lt_succ_self _⟩
    · rw [move_calls_of_ne _ _ hne]
      exact (hs.points d).mono hgrown
  · rcases hcases hc with ⟨hcall, hid⟩ | ⟨-, hold⟩ <;>
      rcases hcases hd with ⟨hcall', hid'⟩ | ⟨-, hold'⟩
    · rw [hcall, hcall']
    · exact absurd (hbefore hold') (by rw [hid]; exact Nat.lt_irrefl _)
    · exact absurd (hbefore hold) (by rw [hid']; exact Nat.lt_irrefl _)
    · exact hs.distinct hold hold'
  · rcases Nat.lt_succ_iff_lt_or_eq.mp hhigh with hold | rfl
    · obtain ⟨d, hd⟩ := hs.handed_out hlow hold
      have hne : d ≠ c := fun heq => by rw [heq, hpoint] at hd; cases hd
      exact ⟨d, by rw [move_calls_of_ne _ _ hne, hd]⟩
    · exact ⟨c, move_calls_self ..⟩

theorem invariant_step {initialValue : ℕ} (s : AcquireSystem κ) (a : AcquireAction κ)
    (hs : Invariant initialValue s) : Invariant initialValue (s.step a) := by
  rcases step_cases hs a with ⟨q, hlocal, hstep⟩ | ⟨hpoint, hlt, hstep⟩
  · rw [hstep]
    exact hs.update hlocal
  · rw [hstep]
    exact hs.exchange hpoint hlt

/-- Every interleaving keeps the invariant. -/
theorem invariant_run {initialValue : ℕ} {s : AcquireSystem κ} (hs : Invariant initialValue s)
    (as : List (AcquireAction κ)) : Invariant initialValue (run step s as) :=
  run_induction invariant_step hs as

/-! ### From one moment to a later one -/

/-- What a run from `s` to `t` has done: the counter has not gone back, a call that had finished
still has its outcome, and an identifier handed out meanwhile is not below the value of the
counter in `s`. -/
structure Extends (s t : AcquireSystem κ) : Prop where
  next_le : s.counter.next ≤ t.counter.next
  finished : ∀ {c outcome}, s.calls c = .finished outcome → t.calls c = .finished outcome
  returned : ∀ {c leaseId}, t.calls c = .finished (.ok leaseId) →
    s.calls c = .finished (.ok leaseId) ∨
      s.counter.next ≤ leaseId ∧ ∀ outcome, s.calls c ≠ .finished outcome

theorem extends_step {initialValue : ℕ} {s : AcquireSystem κ} (hs : Invariant initialValue s)
    (a : AcquireAction κ) : Extends s (s.step a) := by
  rcases step_cases hs a with ⟨q, hlocal, hstep⟩ | ⟨hpoint, -, hstep⟩
  · rw [hstep]
    refine ⟨Nat.le_refl _, fun {c outcome} hc => ?_, fun {c leaseId} hc => Or.inl ?_⟩
    · rcases eq_or_ne c a.call with rfl | hne
      · rw [hc] at hlocal
        exact (move_calls_self ..).trans hlocal.eq_of_finished
      · exact (move_calls_of_ne _ _ hne _).trans hc
    · rcases eq_or_ne c a.call with rfl | hne
      · rw [show q = _ from (move_calls_self ..).symm.trans hc] at hlocal
        exact hlocal.eq_of_returned
      · exact (move_calls_of_ne _ _ hne _).symm.trans hc
  · rw [hstep]
    have hother {c : κ} {outcome : Except RequestStateError ℕ}
        (hc : s.calls c = .finished outcome) : c ≠ a.call := by
      rintro rfl
      rw [hpoint] at hc
      cases hc
    refine ⟨Nat.le_succ _, fun {c outcome} hc => ?_, fun {c leaseId} hc => ?_⟩
    · exact (move_calls_of_ne _ _ (hother hc) _).trans hc
    · rcases eq_or_ne c a.call with rfl | hne
      · have hid := (move_calls_self ..).symm.trans hc
        rw [CallPoint.finished.injEq, Except.ok.injEq] at hid
        exact Or.inr ⟨Nat.le_of_eq hid, fun outcome h => absurd rfl (hother h)⟩
      · exact Or.inl ((move_calls_of_ne _ _ hne _).symm.trans hc)

omit [DecidableEq κ] in
theorem Extends.trans {s t u : AcquireSystem κ} (hst : Extends s t) (htu : Extends t u) :
    Extends s u where
  next_le := Nat.le_trans hst.next_le htu.next_le
  finished := fun hc => htu.finished (hst.finished hc)
  returned := fun {c leaseId} hc => by
    rcases htu.returned hc with hmiddle | ⟨hle, hopen⟩
    · exact hst.returned hmiddle
    · exact Or.inr ⟨Nat.le_trans hst.next_le hle,
        fun outcome h => hopen outcome (hst.finished h)⟩

theorem extends_run {initialValue : ℕ} {s : AcquireSystem κ} (hs : Invariant initialValue s)
    (as : List (AcquireAction κ)) : Extends s (run step s as) := by
  induction as generalizing s with
  | nil => exact ⟨Nat.le_refl _, fun h => h, Or.inl⟩
  | cons a as ih => exact (extends_step hs a).trans (ih (invariant_step s a hs))

/-! ### The end of the sequence -/

/-- At the maximum no step changes the counter. -/
theorem step_counter_of_maximum {initialValue : ℕ} {s : AcquireSystem κ}
    (hs : Invariant initialValue s) (hmaximum : s.counter.next = maximumUint64)
    (a : AcquireAction κ) : (s.step a).counter = s.counter := by
  rcases step_cases hs a with ⟨q, -, hstep⟩ | ⟨-, hlt, -⟩
  · rw [hstep, move_counter]
  · exact absurd hmaximum (Nat.ne_of_lt hlt)

theorem run_counter_of_maximum {initialValue : ℕ} {s : AcquireSystem κ}
    (hs : Invariant initialValue s) (hmaximum : s.counter.next = maximumUint64)
    (as : List (AcquireAction κ)) : (run step s as).counter = s.counter := by
  induction as generalizing s with
  | nil => rfl
  | cons a as ih =>
    have hcounter := step_counter_of_maximum hs hmaximum a
    exact (ih (invariant_step s a hs) (by rw [hcounter, hmaximum])).trans hcounter

/-- At the maximum each call goes its way on its own. -/
theorem run_calls_of_maximum {initialValue : ℕ} {s : AcquireSystem κ}
    (hs : Invariant initialValue s) (hmaximum : s.counter.next = maximumUint64)
    (as : List (AcquireAction κ)) (d : κ) :
    (run step s as).calls d =
      (as.filter fun a => a.call = d).foldl (CallPoint.advance s.counter) (s.calls d) := by
  induction as generalizing s with
  | nil => rfl
  | cons a as ih =>
    have hcounter := step_counter_of_maximum hs hmaximum a
    rw [run_cons, ih (invariant_step s a hs) (by rw [hcounter, hmaximum]), hcounter]
    rcases eq_or_ne d a.call with rfl | hne
    · rw [List.filter_cons_of_pos (by simp), List.foldl_cons, step, move_calls_self]
    · rw [List.filter_cons_of_neg (by simpa using hne.symm), step, move_calls_of_ne _ _ hne]

/-- The steps of a call that sees the latest value: one round of the loop, and the test of the
value that a failed exchange has brought. -/
def upToDateSteps (call : κ) (spurious : Bool) : List (AcquireAction κ) :=
  [.start call, .load call 0, .test call, .exchange call spurious 0, .test call]

omit [DecidableEq κ] in
/-- A call that sees the maximum reports exhaustion. -/
theorem advance_upToDateSteps {initialValue : ℕ} {counter : AtomicCounter} {p : CallPoint}
    (hp : PointMeets initialValue counter p) (hmaximum : counter.next = maximumUint64)
    (hopen : ∀ outcome, p ≠ .finished outcome) (call : κ) (spurious : Bool) :
    (upToDateSteps call spurious).foldl (CallPoint.advance counter) p =
      .finished (.error leaseSequenceExhausted) := by
  have hload : counter.load 0 = maximumUint64 := hmaximum
  have hretry {candidate : ℕ} (hne : candidate ≠ maximumUint64) :
      ¬ (candidate = counter.next ∧ spurious = false) := fun h => hne (h.1.trans hmaximum)
  cases p with
  | notStarted => simp [upToDateSteps, CallPoint.advance, hload]
  | entered => simp [upToDateSteps, CallPoint.advance, hload]
  | loaded candidate =>
    by_cases hlimit : candidate = 0 ∨ candidate = maximumUint64
    · simp [upToDateSteps, CallPoint.advance, hlimit]
    · have hne : candidate ≠ maximumUint64 := fun h => hlimit (Or.inr h)
      simp [upToDateSteps, CallPoint.advance, hlimit, hretry hne, hload]
  | tested candidate => simp [upToDateSteps, CallPoint.advance, hretry hp.2, hload]
  | finished outcome => exact absurd rfl (hopen outcome)

/-! ### Identifiers are never reused -/

/-- Between the moments `middle` and `final` of any interleaving of calls on a new sequence: no two
calls have the same identifier; a call that had not started by `middle` gets a larger identifier
than every call that had finished by then; the counter does not go back or leave its range; and
once it is at its maximum it stays there, every call still open or to come ends, if it ends, with
exhaustion, and it does end so when it sees the latest value. -/
theorem acquire_never_reuses {initialValue : ℕ} {ids : LeaseIdSequence}
    (hrange : initialValue ≤ maximumUint64)
    (hconstruct : LeaseIdSequence.construct initialValue = .ok ids)
    (before after : List (AcquireAction κ)) :
    let middle := run step (initial ids) before
    let final := run step middle after
    (∀ c d leaseId, final.calls c = .finished (.ok leaseId) →
        final.calls d = .finished (.ok leaseId) → c = d) ∧
      (∀ c d earlier later, middle.calls c = .finished (.ok earlier) →
        middle.calls d = .notStarted → final.calls d = .finished (.ok later) → earlier < later) ∧
      (middle.counter.next ≤ final.counter.next ∧ final.counter.next ≤ maximumUint64) ∧
      (middle.counter.next = maximumUint64 → final.counter = middle.counter ∧
        ∀ d, (∀ outcome, middle.calls d ≠ .finished outcome) →
          (∀ outcome, final.calls d = .finished outcome →
            outcome = .error leaseSequenceExhausted) ∧
          ∀ spurious, (after.filter fun a => a.call = d) = upToDateSteps d spurious →
            final.calls d = .finished (.error leaseSequenceExhausted)) := by
  intro middle final
  obtain ⟨-, rfl⟩ := LeaseIdSequence.construct_eq_ok_iff.mp hconstruct
  have hmiddle : Invariant initialValue middle := invariant_run (invariant_initial hrange) before
  have hfinal : Invariant initialValue final := invariant_run hmiddle after
  have hextends : Extends middle final := extends_run hmiddle after
  refine ⟨fun c d leaseId hc hd => hfinal.distinct hc hd, fun c d earlier later hc hd hlater => ?_,
    ⟨hextends.next_le, hfinal.next_le⟩, fun hmaximum => ?_⟩
  · have hearlier : earlier < middle.counter.next := by
      have hpoint := hmiddle.points c
      rw [hc] at hpoint
      exact hpoint.2
    rcases hextends.returned hlater with hold | ⟨hle, -⟩
    · rw [hd] at hold
      cases hold
    · exact Nat.lt_of_lt_of_le hearlier hle
  · have hcounter : final.counter = middle.counter := run_counter_of_maximum hmiddle hmaximum after
    refine ⟨hcounter, fun d hopen => ⟨fun outcome hd => ?_, fun spurious hown => ?_⟩⟩
    · cases outcome with
      | error error =>
        have hpoint := hfinal.points d
        rw [hd] at hpoint
        exact congrArg Except.error hpoint
      | ok leaseId =>
        -- the identifier would lie behind the counter and not below the maximum
        have hpoint := hfinal.points d
        rw [hd, hcounter] at hpoint
        rcases hextends.returned hd with hold | ⟨hle, -⟩
        · exact absurd hold (hopen _)
        · exact absurd (Nat.lt_of_lt_of_le hpoint.2 hle) (Nat.lt_irrefl _)
    · have hcalls := run_calls_of_maximum hmiddle hmaximum after d
      rw [hown] at hcalls
      exact hcalls.trans (advance_upToDateSteps (hmiddle.points d) hmaximum hopen d spurious)

/-- Two calls race for the last identifier, a third comes too late. -/
theorem acquire_last_identifier :
    let before : List (AcquireAction ℕ) :=
      [.start 0, .start 1, .load 0 0, .load 1 0, .test 0, .test 1, .exchange 1 false 0]
    let middle := run step (initial ⟨18446744073709551614⟩) before
    let final := run step middle (.exchange 0 false 0 :: .test 0 :: upToDateSteps 2 false)
    middle.counter.next = maximumUint64 ∧
      middle.calls 1 = .finished (.ok 18446744073709551614) ∧
      final.calls 0 = .finished (.error leaseSequenceExhausted) ∧
      final.calls 2 = .finished (.error leaseSequenceExhausted) := by
  intro before middle final
  have hconstruct : LeaseIdSequence.construct 18446744073709551614 =
      .ok ⟨18446744073709551614⟩ := rfl
  have hall := acquire_never_reuses (by decide) hconstruct before
    (.exchange 0 false 0 :: .test 0 :: upToDateSteps 2 false)
  have hmaximum : middle.counter.next = maximumUint64 := rfl
  refine ⟨hmaximum, rfl, rfl, ?_⟩
  exact ((hall.2.2.2 hmaximum).2 2 (fun outcome h => nomatch h)).2 false rfl

end AcquireSystem

end MagpieTts.Runtime
