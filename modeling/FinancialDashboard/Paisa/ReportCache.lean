import FinancialDashboard.Lib.OrderedDict
import FinancialDashboard.Lib.Transition
import Mathlib.Algebra.Order.Ring.Rat
import Mathlib.Tactic.Linarith

/-!
# The report cache

`PaisaReportCache` keeps the last report of each key for a time to live, and lets
the readers that ask at once share one upstream call.  The guard of `read` and of
`_fetch_once` is never held across an `await`, so each guarded block is one step;
between them anything may happen: other readers, a fetch that returns or raises, a
reader that is cancelled, `invalidate`.

The state holds what the cache holds, and beside it the `_InFlight` objects and the
readers by number, with what a run has to be judged by: when each began, and how many
times its key had been invalidated by then.

* `inv_step`: what each step does to the markers, the entries and the readers.
* `run_safe`: in every run one key has at most one fetch in flight, what is cached is
  what a fetch returned, the entries stay within the bound, and a hit is younger than
  the time to live of its reader.
-/

namespace FinancialDashboard.Paisa.ReportCache

open Transition (System)
open Transition.System (always)

/-! ### The state -/

/-- The outcome of one `read`. -/
structure CacheRead (V : Type) where
  value : V
  hit : Bool
deriving DecidableEq

/-- A `_CachedEntry`, and the generation that published it. -/
structure CachedEntry (V : Type) where
  value : V
  fetchedMonotonic : ℚ
  flight : ℕ

/-- How far the task of a generation is.  `begun` is the number of invalidations of its
key by the time the fetch began, `finished` the clock when it ended. -/
inductive TaskState (V : Type) where
  | scheduled
  | running (begun : ℕ)
  | returned (begun : ℕ) (value : V) (finished : ℚ)
  | raised (begun : ℕ) (finished : ℚ)
deriving DecidableEq

namespace TaskState

variable {V : Type}

def begun? : TaskState V → Option ℕ
  | scheduled => none
  | running begun | returned begun _ _ | raised begun _ => some begun

def finished? : TaskState V → Option ℚ
  | scheduled | running _ => none
  | returned _ _ finished | raised _ finished => some finished

/-- The task is still in flight. -/
def Pending (task : TaskState V) : Prop := task.finished? = none

/-- The fetch of the task has begun and not ended. -/
def isRunning : TaskState V → Bool
  | running _ => true
  | _ => false

end TaskState

/-- An `_InFlight`, with the key it was created for. -/
structure InFlight (K V : Type) where
  key : K
  retain : Bool
  task : TaskState V
deriving DecidableEq

inductive ReaderState (V : Type) where
  | waiting (flight : ℕ) (joined : Bool)
  | served (read : CacheRead V) (flight : ℕ) (servedAt : ℚ)
  | failed (flight : ℕ)
  | cancelled
deriving DecidableEq

/-- A call of `read`: its key and time to live, the clock it read, and the number of
invalidations of its key that had returned when it started. -/
structure Reader (K V : Type) where
  key : K
  ttl : ℤ
  startedAt : ℚ
  epoch : ℕ
  state : ReaderState V
deriving DecidableEq

structure State (K V : Type) where
  now : ℚ
  entries : OrderedDict K (CachedEntry V)
  inflight : OrderedDict K ℕ
  upstreamCalls : ℕ
  flights : ℕ → Option (InFlight K V)
  created : ℕ
  readers : ℕ → Option (Reader K V)
  invalidations : K → ℕ

inductive Event (K V : Type) where
  /-- A reader enters `read` and leaves its guarded block. -/
  | read (reader : ℕ) (key : K) (ttlSeconds : ℤ)
  /-- The task of a generation takes its first step: the fetch begins. -/
  | run (flight : ℕ)
  | fetched (flight : ℕ) (value : V)
  | raised (flight : ℕ)
  /-- A reader is resumed after its generation is done. -/
  | wake (reader : ℕ)
  | cancel (reader : ℕ)
  | invalidate (key : Option K)
  | pass (seconds : ℚ)

variable {K V : Type} [DecidableEq K]

/-- `PaisaReportCache.__init__`, at a reading of the clock. -/
def init (now : ℚ) : State K V where
  now := now
  entries := ∅
  inflight := ∅
  upstreamCalls := 0
  flights _ := none
  created := 0
  readers _ := none
  invalidations _ := 0

/-- `self._max`. -/
def bound (maxEntries : ℤ) : ℕ := (max 1 maxEntries).toNat

/-- `invalidate(key)` is about `k`. -/
def Covers (key : Option K) (k : K) : Prop := ∀ j ∈ key, j = k

instance (key : Option K) (k : K) : Decidable (Covers key k) :=
  inferInstanceAs (Decidable (∀ j ∈ key, j = k))

/-! ### The steps -/

namespace State

def setFlight (s : State K V) (t : ℕ) (flight : InFlight K V) : State K V :=
  { s with flights := Function.update s.flights t (some flight) }

def setReader (s : State K V) (r : ℕ) (reader : Reader K V) : State K V :=
  { s with readers := Function.update s.readers r (some reader) }

/-- The entry of the key, if the time to live still covers it. -/
def freshEntry (s : State K V) (key : K) (ttl : ℤ) : Option (CachedEntry V) :=
  if 0 < ttl then
    (s.entries.get? key).filter fun entry => s.now - entry.fetchedMonotonic < ttl
  else none

/-- A reader with no time to live leaves no older entry behind. -/
def forget (s : State K V) (key : K) (ttl : ℤ) : State K V :=
  if ttl ≤ 0 then { s with entries := s.entries.pop key } else s

/-- `asyncio.create_task(self._fetch_once(key, fetch))` -/
def launch (s : State K V) (key : K) (retain : Bool) : State K V :=
  { s.setFlight s.created ⟨key, retain, .scheduled⟩ with
    inflight := s.inflight.set key s.created
    created := s.created + 1 }

/-- A reader that joins with no time to live keeps the generation from being retained. -/
def join (s : State K V) (t : ℕ) (flight : InFlight K V) (ttl : ℤ) : State K V :=
  if ttl ≤ 0 then s.setFlight t { flight with retain := false } else s

/-- The guarded block of `read`, with the reader that leaves it. -/
def read (s : State K V) (r : ℕ) (key : K) (ttlSeconds : ℤ) : State K V :=
  let ttl := max 0 ttlSeconds
  let reader := fun state => ⟨key, ttl, s.now, s.invalidations key, state⟩
  match s.freshEntry key ttl with
  | some entry => s.setReader r (reader (.served ⟨entry.value, true⟩ entry.flight s.now))
  | none =>
    match s.inflight.get? key with
    | none =>
      ((s.forget key ttl).launch key (0 < ttl)).setReader r (reader (.waiting s.created false))
    | some t =>
      match s.flights t with
      | none => s
      | some flight =>
        ((s.forget key ttl).join t flight ttl).setReader r (reader (.waiting t true))

/-- `_evict_if_needed` -/
def evictIfNeeded (maxEntries : ℤ) (entries : OrderedDict K (CachedEntry V)) :
    OrderedDict K (CachedEntry V) :=
  if entries.size ≤ bound maxEntries then entries
  else match entries.oldest? CachedEntry.fetchedMonotonic with
    | none => entries
    | some key => entries.pop key

/-- What `_fetch_once` publishes when the fetch has returned. -/
def publish (s : State K V) (maxEntries : ℤ) (t : ℕ) (flight : InFlight K V) (value : V) :
    OrderedDict K (CachedEntry V) :=
  if flight.retain then
    evictIfNeeded maxEntries (s.entries.set flight.key ⟨value, s.now, t⟩)
  else s.entries

/-- The end of `_fetch_once` after the fetch has returned. -/
def fetched (s : State K V) (maxEntries : ℤ) (t : ℕ) (flight : InFlight K V) (begun : ℕ)
    (value : V) : State K V :=
  let done := s.setFlight t { flight with task := .returned begun value s.now }
  if s.inflight.get? flight.key = some t then
    { done with
      entries := s.publish maxEntries t flight value
      inflight := s.inflight.pop flight.key }
  else done

/-- The end of `_fetch_once` after the fetch has raised. -/
def raised (s : State K V) (t : ℕ) (flight : InFlight K V) (begun : ℕ) : State K V :=
  let done := s.setFlight t { flight with task := .raised begun s.now }
  if s.inflight.get? flight.key = some t then
    { done with inflight := s.inflight.pop flight.key }
  else done

/-- What a reader makes of the generation it waits for, once that is done. -/
def resumed (s : State K V) (reader : Reader K V) (t : ℕ) (joined : Bool)
    (flight : InFlight K V) : Option (ReaderState V) :=
  match flight.task with
  | .returned _ value _ =>
    some (.served ⟨value, joined && decide (0 < reader.ttl) && flight.retain⟩ t s.now)
  | .raised _ _ => some (.failed t)
  | .scheduled | .running _ => none

/-- `invalidate` -/
def invalidate (s : State K V) (key : Option K) : State K V :=
  { s with
    entries := match key with
      | none => ∅
      | some k => s.entries.pop k
    invalidations := fun k => if Covers key k then s.invalidations k + 1 else s.invalidations k }

/-- The first step of `_fetch_once`: the fetch begins. -/
def run (s : State K V) (t : ℕ) (flight : InFlight K V) : State K V :=
  { s.setFlight t { flight with task := .running (s.invalidations flight.key) } with
    upstreamCalls := s.upstreamCalls + 1 }

end State

/-- One step, where it is enabled. -/
def step (maxEntries : ℤ) (s : State K V) : Event K V → Option (State K V)
  | .read r key ttlSeconds =>
    match s.readers r with
    | none => some (s.read r key ttlSeconds)
    | some _ => none
  | .run t => do
    let flight ← s.flights t
    match flight.task with
    | .scheduled => some (s.run t flight)
    | _ => none
  | .fetched t value => do
    let flight ← s.flights t
    match flight.task with
    | .running begun => some (s.fetched maxEntries t flight begun value)
    | _ => none
  | .raised t => do
    let flight ← s.flights t
    match flight.task with
    | .running begun => some (s.raised t flight begun)
    | _ => none
  | .wake r => do
    let reader ← s.readers r
    match reader.state with
    | .waiting t joined => do
      let flight ← s.flights t
      let state ← s.resumed reader t joined flight
      some (s.setReader r { reader with state })
    | _ => none
  | .cancel r => do
    let reader ← s.readers r
    match reader.state with
    | .waiting _ _ => some (s.setReader r { reader with state := .cancelled })
    | _ => none
  | .invalidate key => some (s.invalidate key)
  | .pass seconds => if 0 ≤ seconds then some { s with now := s.now + seconds } else none

/-- The cache with its readers and its fetches. -/
def system (maxEntries : ℤ) : System (State K V) (Event K V) := ⟨step maxEntries⟩

/-! ### What a reader may be given -/

/-- At most one fetch of a key is in flight. -/
def SingleFlight (s : State K V) : Prop :=
  ∀ t t' flight flight', s.flights t = some flight → s.flights t' = some flight' →
    flight.task.Pending → flight'.task.Pending → flight.key = flight'.key → t = t'

/-- The generation `t` fetched `value` for `key`, and returned at `finished`. -/
def Fetched (s : State K V) (t : ℕ) (key : K) (value : V) (begun : ℕ) (finished : ℚ) : Prop :=
  ∃ flight, s.flights t = some flight ∧ flight.key = key ∧
    flight.task = .returned begun value finished

/-- An entry is what a fetch of its key returned, and an exception reaches only readers
that had asked by the time it was raised. -/
structure ExceptionsPass (s : State K V) : Prop where
  entry : ∀ key entry, s.entries.get? key = some entry →
    ∃ begun, Fetched s entry.flight key entry.value begun entry.fetchedMonotonic
  reader : ∀ r reader t, s.readers r = some reader → reader.state = .failed t →
    ∃ flight begun finished, s.flights t = some flight ∧ flight.key = reader.key ∧
      flight.task = .raised begun finished ∧ reader.startedAt ≤ finished

/-- What a hit had been fetched less than the reader's time to live ago, by the clock the
read took; it was returned on the spot, or fetched while the reader waited. -/
def Young (reader : Reader K V) (finished servedAt : ℚ) : Prop :=
  0 < reader.ttl ∧ reader.startedAt - finished < reader.ttl ∧
    (servedAt - finished < reader.ttl ∨ reader.startedAt ≤ finished)

def HitsYoung (s : State K V) : Prop :=
  ∀ r reader read t servedAt, s.readers r = some reader →
    reader.state = .served read t servedAt → read.hit = true →
    ∃ begun finished, Fetched s t reader.key read.value begun finished ∧
      Young reader finished servedAt

/-- What holds in every run. -/
structure Safe (maxEntries : ℤ) (s : State K V) : Prop where
  singleFlight : SingleFlight s
  exceptionsPass : ExceptionsPass s
  bounded : s.entries.size ≤ bound maxEntries
  hitsYoung : HitsYoung s

/-! ### How a generation moves on -/

/-- From `a`, with `invalidations` of its key so far, a task may have come to `b` by a
step at the clock `now`. -/
structure Evolves (now : ℚ) (invalidations : ℕ) (a b : TaskState V) : Prop where
  finished : ∀ x, a.finished? = some x → b = a
  later : ∀ x, b.finished? = some x → a.finished? = some x ∨ now ≤ x
  begun : ∀ n, b.begun? = some n → a.begun? = some n ∨ invalidations ≤ n

omit [DecidableEq K] in
theorem Evolves.refl (now : ℚ) (invalidations : ℕ) (a : TaskState V) :
    Evolves now invalidations a a :=
  ⟨fun _ _ => rfl, fun _ h => .inl h, fun _ h => .inl h⟩

/-- Every generation of `s` is one of `s'`, and has moved on. -/
structure Advance (s s' : State K V) : Prop where
  now_le : s.now ≤ s'.now
  invalidations_le : ∀ k, s.invalidations k ≤ s'.invalidations k
  flight : ∀ t flight, s.flights t = some flight → ∃ flight', s'.flights t = some flight' ∧
    flight'.key = flight.key ∧
    Evolves s.now (s.invalidations flight.key) flight.task flight'.task
  new : ∀ t flight, s'.flights t = some flight → s.flights t = none → flight.task = .scheduled

omit [DecidableEq K] in
theorem Advance.of_flights {s s' : State K V} (hnow : s.now ≤ s'.now)
    (hinv : ∀ k, s.invalidations k ≤ s'.invalidations k) (hflights : s'.flights = s.flights) :
    Advance s s' :=
  ⟨hnow, hinv, fun t flight ht => ⟨flight, by rw [hflights, ht], rfl, Evolves.refl _ _ _⟩,
    fun t flight ht hn => by rw [hflights, hn] at ht; cases ht⟩

omit [DecidableEq K] in
/-- A step that changes one generation only. -/
theorem Advance.of_update {s s' : State K V} {t : ℕ} {flight flight' : InFlight K V}
    (hnow : s'.now = s.now) (hinv : s'.invalidations = s.invalidations)
    (ht : s.flights t = some flight)
    (hflights : s'.flights = Function.update s.flights t (some flight'))
    (hkey : flight'.key = flight.key)
    (htask : Evolves s.now (s.invalidations flight.key) flight.task flight'.task) :
    Advance s s' := by
  refine ⟨hnow.ge, fun k => (congrFun hinv k).ge, fun u g hu => ?_, fun u g hg hu => ?_⟩
  · by_cases h : u = t
    · subst h
      obtain rfl : flight = g := Option.some.inj (ht.symm.trans hu)
      exact ⟨flight', by rw [hflights, Function.update_self], hkey, htask⟩
    · exact ⟨g, by rw [hflights, Function.update_of_ne h, hu], rfl, Evolves.refl _ _ _⟩
  · have h : u ≠ t := fun h => by rw [h, ht] at hu; cases hu
    rw [hflights, Function.update_of_ne h, hu] at hg
    cases hg

omit [DecidableEq K] in
theorem setFlight_flights_self (s : State K V) (t : ℕ) (flight : InFlight K V) :
    (s.setFlight t flight).flights t = some flight :=
  Function.update_self ..

omit [DecidableEq K] in
theorem Fetched.advance {s s' : State K V} {t : ℕ} {key : K} {value : V} {begun : ℕ}
    {finished : ℚ} (h : Fetched s t key value begun finished) (ha : Advance s s') :
    Fetched s' t key value begun finished := by
  obtain ⟨flight, ht, hkey, htask⟩ := h
  obtain ⟨flight', ht', hkey', hev⟩ := ha.flight t flight ht
  exact ⟨flight', ht', hkey'.trans hkey,
    (hev.finished finished (by rw [htask]; rfl)).trans htask⟩

/-! ### The invariant -/

/-- The markers in flight are the tasks that are not done. -/
structure Tracks (s : State K V) : Prop where
  inflight : ∀ key t, s.inflight.get? key = some t →
    ∃ flight, s.flights t = some flight ∧ flight.key = key ∧ flight.task.Pending
  pending : ∀ t flight, s.flights t = some flight → flight.task.Pending →
    s.inflight.get? flight.key = some t
  created : ∀ t flight, s.flights t = some flight → t < s.created

/-- What is cached was fetched, and there is not too much of it. -/
structure Caches (maxEntries : ℤ) (s : State K V) : Prop where
  entry : ∀ key entry, s.entries.get? key = some entry →
    ∃ begun, Fetched s entry.flight key entry.value begun entry.fetchedMonotonic
  size : s.entries.size ≤ bound maxEntries

/-- A reader has what its generation gave it. -/
def Holds (s : State K V) (reader : Reader K V) : Prop :=
  match reader.state with
  | .waiting t _ => ∃ flight, s.flights t = some flight ∧ flight.key = reader.key ∧
      ∀ x, flight.task.finished? = some x → reader.startedAt ≤ x
  | .served read t servedAt => ∃ begun finished,
      Fetched s t reader.key read.value begun finished ∧
        (read.hit = true → Young reader finished servedAt)
  | .failed t => ∃ flight begun finished, s.flights t = some flight ∧ flight.key = reader.key ∧
      flight.task = .raised begun finished ∧ reader.startedAt ≤ finished
  | .cancelled => True

structure Inv (maxEntries : ℤ) (s : State K V) : Prop where
  tracks : Tracks s
  caches : Caches maxEntries s
  started : ∀ r reader, s.readers r = some reader →
    reader.startedAt ≤ s.now ∧ reader.epoch ≤ s.invalidations reader.key
  holds : ∀ r reader, s.readers r = some reader → Holds s reader

omit [DecidableEq K] in
theorem Holds.advance {s s' : State K V} {reader : Reader K V} (h : Holds s reader)
    (hstarted : reader.startedAt ≤ s.now) (ha : Advance s s') : Holds s' reader := by
  unfold Holds at h ⊢
  split at h
  · obtain ⟨flight, ht, hkey, hfinished⟩ := h
    obtain ⟨flight', ht', hkey', hev⟩ := ha.flight _ flight ht
    refine ⟨flight', ht', hkey'.trans hkey, fun x hx => ?_⟩
    rcases hev.later x hx with h | h
    · exact hfinished x h
    · exact le_trans hstarted h
  · obtain ⟨begun, finished, hfetched, hyoung⟩ := h
    exact ⟨begun, finished, hfetched.advance ha, hyoung⟩
  · obtain ⟨flight, begun, finished, ht, hkey, htask, hle⟩ := h
    obtain ⟨flight', ht', hkey', hev⟩ := ha.flight _ flight ht
    exact ⟨flight', begun, finished, ht', hkey'.trans hkey,
      (hev.finished finished (by rw [htask]; rfl)).trans htask, hle⟩
  · exact trivial

theorem Tracks.singleFlight {s : State K V} (h : Tracks s) : SingleFlight s := by
  intro t t' flight flight' ht ht' hp hp' hkey
  have hin := h.pending t flight ht hp
  rw [hkey, h.pending t' flight' ht' hp'] at hin
  exact (Option.some.inj hin).symm

theorem Inv.safe {maxEntries : ℤ} {s : State K V} (h : Inv maxEntries s) : Safe maxEntries s where
  singleFlight := h.tracks.singleFlight
  exceptionsPass :=
    { entry := h.caches.entry
      reader := fun r reader t hr hstate => by
        have := h.holds r reader hr
        rw [Holds, hstate] at this
        exact this }
  bounded := h.caches.size
  hitsYoung := fun r reader read t servedAt hr hstate hhit => by
    have := h.holds r reader hr
    rw [Holds, hstate] at this
    obtain ⟨begun, finished, hfetched, hyoung⟩ := this
    exact ⟨begun, finished, hfetched, hyoung hhit⟩

theorem inv_init (maxEntries : ℤ) (now : ℚ) : Inv maxEntries (init now : State K V) where
  tracks :=
    { inflight := fun _ _ h => by cases h
      pending := fun _ _ h => by cases h
      created := fun _ _ h => by cases h }
  caches :=
    { entry := fun _ _ h => by cases h
      size := Nat.zero_le _ }
  started := fun _ _ h => by cases h
  holds := fun _ _ h => by cases h

/-! ### The markers -/

theorem Tracks.of_eq {s s' : State K V} (h : Tracks s) (hin : s'.inflight = s.inflight)
    (hflights : s'.flights = s.flights) (hcreated : s'.created = s.created) : Tracks s' :=
  ⟨by rw [hin, hflights]; exact h.inflight, by rw [hin, hflights]; exact h.pending,
    by rw [hcreated, hflights]; exact h.created⟩

/-- A task that is no more done than it was keeps its marker. -/
theorem Tracks.update {s s' : State K V} {t : ℕ} {flight flight' : InFlight K V} (h : Tracks s)
    (ht : s.flights t = some flight) (hin : s'.inflight = s.inflight)
    (hflights : s'.flights = Function.update s.flights t (some flight'))
    (hcreated : s'.created = s.created) (hkey : flight'.key = flight.key)
    (hpending : flight'.task.Pending ↔ flight.task.Pending) : Tracks s' := by
  refine ⟨fun key u hu => ?_, fun u g hu hp => ?_, fun u g hu => ?_⟩
  · rw [hin] at hu
    obtain ⟨g, hg, hgkey, hp⟩ := h.inflight key u hu
    rw [hflights]
    by_cases hut : u = t
    · subst hut
      obtain rfl : flight = g := Option.some.inj (ht.symm.trans hg)
      exact ⟨flight', by rw [Function.update_self], hkey.trans hgkey, hpending.mpr hp⟩
    · exact ⟨g, by rw [Function.update_of_ne hut, hg], hgkey, hp⟩
  · rw [hflights] at hu
    rw [hin]
    by_cases hut : u = t
    · subst hut
      rw [Function.update_self] at hu
      obtain rfl : flight' = g := Option.some.inj hu
      rw [hkey]
      exact h.pending u flight ht (hpending.mp hp)
    · rw [Function.update_of_ne hut] at hu
      exact h.pending u g hu hp
  · rw [hflights] at hu
    rw [hcreated]
    by_cases hut : u = t
    · exact hut ▸ h.created t flight ht
    · rw [Function.update_of_ne hut] at hu
      exact h.created u g hu

/-- A task that is done loses its marker. -/
theorem Tracks.finish {s s' : State K V} {t : ℕ} {flight flight' : InFlight K V} (h : Tracks s)
    (ht : s.flights t = some flight) (hp : flight.task.Pending)
    (hin : s'.inflight = s.inflight.pop flight.key)
    (hflights : s'.flights = Function.update s.flights t (some flight'))
    (hcreated : s'.created = s.created) (hdone : ¬ flight'.task.Pending) : Tracks s' := by
  refine ⟨fun key u hu => ?_, fun u g hu hg => ?_, fun u g hu => ?_⟩
  · rw [hin, OrderedDict.get?_pop] at hu
    split_ifs at hu with hkey
    obtain ⟨g, hg, hgkey, hgp⟩ := h.inflight key u hu
    have hut : u ≠ t := fun hut => hkey (by
      rw [hut, ht] at hg
      exact hgkey.symm.trans (congrArg InFlight.key (Option.some.inj hg)).symm)
    exact ⟨g, by rw [hflights, Function.update_of_ne hut, hg], hgkey, hgp⟩
  · rw [hflights] at hu
    have hut : u ≠ t := fun hut => hdone (by
      rw [hut, Function.update_self] at hu
      exact (Option.some.inj hu) ▸ hg)
    rw [Function.update_of_ne hut] at hu
    have hkey : g.key ≠ flight.key := fun hkey =>
      hut (h.singleFlight u t g flight hu ht hg hp hkey)
    rw [hin, OrderedDict.get?_pop_of_ne hkey]
    exact h.pending u g hu hg
  · rw [hflights] at hu
    rw [hcreated]
    by_cases hut : u = t
    · exact hut ▸ h.created t flight ht
    · rw [Function.update_of_ne hut] at hu
      exact h.created u g hu

theorem launch_flights_self (s : State K V) (key : K) (retain : Bool) :
    (s.launch key retain).flights s.created = some ⟨key, retain, .scheduled⟩ :=
  Function.update_self ..

theorem launch_flights_of_ne (s : State K V) (key : K) (retain : Bool) {t : ℕ}
    (h : t ≠ s.created) : (s.launch key retain).flights t = s.flights t :=
  Function.update_of_ne h ..

/-- A new task of a key that has none in flight takes a marker. -/
theorem Tracks.launch {s : State K V} (h : Tracks s) {key : K} {retain : Bool}
    (hkey : s.inflight.get? key = none) : Tracks (s.launch key retain) := by
  have hfresh : ∀ u g, s.flights u = some g → u ≠ s.created := fun u g hu =>
    (h.created u g hu).ne
  refine ⟨fun j u hu => ?_, fun u g hu hg => ?_, fun u g hu => ?_⟩
  · simp only [State.launch, OrderedDict.get?_set] at hu
    split_ifs at hu with hj
    · obtain rfl := Option.some.inj hu
      exact ⟨_, launch_flights_self s key retain, hj.symm, rfl⟩
    · obtain ⟨g, hg, hgkey, hgp⟩ := h.inflight j u hu
      exact ⟨g, (launch_flights_of_ne s key retain (hfresh u g hg)).trans hg, hgkey, hgp⟩
  · by_cases hu' : u = s.created
    · subst hu'
      obtain rfl := Option.some.inj ((launch_flights_self s key retain).symm.trans hu)
      exact OrderedDict.get?_set_self
    · have hold : s.flights u = some g := (launch_flights_of_ne s key retain hu').symm.trans hu
      have hin := h.pending u g hold hg
      have hne : g.key ≠ key := fun heq => by rw [heq, hkey] at hin; cases hin
      exact (OrderedDict.get?_set_of_ne hne).trans hin
  · show u < s.created + 1
    by_cases hu' : u = s.created
    · omega
    · have := h.created u g ((launch_flights_of_ne s key retain hu').symm.trans hu)
      omega

/-! ### What each step does to the invariant -/

variable {maxEntries : ℤ} {s s' : State K V}

theorem Caches.of_subset (h : Caches maxEntries s) (ha : Advance s s')
    (hsub : ∀ k e, s'.entries.get? k = some e → s.entries.get? k = some e)
    (hsize : s'.entries.size ≤ s.entries.size) : Caches maxEntries s' := by
  refine ⟨fun k e he => ?_, le_trans hsize h.size⟩
  obtain ⟨begun, hfetched⟩ := h.entry k e (hsub k e he)
  exact ⟨begun, hfetched.advance ha⟩

theorem Inv.of_advance (h : Inv maxEntries s) (ha : Advance s s') (htracks : Tracks s')
    (hcaches : Caches maxEntries s') (hreaders : s'.readers = s.readers) : Inv maxEntries s' where
  tracks := htracks
  caches := hcaches
  started := fun r reader hr => by
    rw [hreaders] at hr
    obtain ⟨hstarted, hepoch⟩ := h.started r reader hr
    exact ⟨le_trans hstarted ha.now_le, le_trans hepoch (ha.invalidations_le _)⟩
  holds := fun r reader hr => by
    rw [hreaders] at hr
    exact (h.holds r reader hr).advance (h.started r reader hr).1 ha

theorem Inv.setReader (h : Inv maxEntries s) {r : ℕ} {reader : Reader K V}
    (hstarted : reader.startedAt ≤ s.now) (hepoch : reader.epoch ≤ s.invalidations reader.key)
    (hholds : Holds s reader) : Inv maxEntries (s.setReader r reader) where
  tracks := h.tracks.of_eq rfl rfl rfl
  caches := ⟨h.caches.entry, h.caches.size⟩
  started := fun u x hu => by
    by_cases hur : u = r
    · subst hur
      obtain rfl : reader = x := by simpa [State.setReader] using hu
      exact ⟨hstarted, hepoch⟩
    · exact h.started u x (by simpa [State.setReader, hur] using hu)
  holds := fun u x hu => by
    by_cases hur : u = r
    · subst hur
      obtain rfl : reader = x := by simpa [State.setReader] using hu
      exact hholds
    · exact h.holds u x (by simpa [State.setReader, hur] using hu)

theorem advance_forget (key : K) (ttl : ℤ) : Advance s (s.forget key ttl) := by
  unfold State.forget
  split_ifs
  · exact Advance.of_flights (le_refl _) (fun _ => le_refl _) rfl
  · exact Advance.of_flights (le_refl _) (fun _ => le_refl _) rfl

/-- `forget` is about the entries only, and leaves no new ones. -/
theorem forget_spec (s : State K V) (key : K) (ttl : ℤ) :
    ∃ entries, s.forget key ttl = { s with entries } ∧
      (∀ k e, entries.get? k = some e → s.entries.get? k = some e) ∧
      entries.size ≤ s.entries.size := by
  unfold State.forget
  split_ifs
  · exact ⟨_, rfl, fun _ _ => OrderedDict.get?_of_get?_pop, OrderedDict.size_pop_le⟩
  · exact ⟨_, rfl, fun _ _ h => h, le_refl _⟩

theorem Inv.forget (h : Inv maxEntries s) (key : K) (ttl : ℤ) :
    Inv maxEntries (s.forget key ttl) := by
  obtain ⟨entries, heq, hsub, hsize⟩ := forget_spec s key ttl
  have ha := advance_forget (s := s) key ttl
  rw [heq] at ha ⊢
  exact h.of_advance ha (h.tracks.of_eq rfl rfl rfl) (h.caches.of_subset ha hsub hsize) rfl

theorem advance_launch (h : Tracks s) (key : K) (retain : Bool) :
    Advance s (s.launch key retain) := by
  refine ⟨le_refl _, fun _ => le_refl _, fun t flight ht => ?_, fun t flight ht hn => ?_⟩
  · have hne : t ≠ s.created := (h.created t flight ht).ne
    exact ⟨flight, (launch_flights_of_ne s key retain hne).trans ht, rfl, Evolves.refl _ _ _⟩
  · by_cases hne : t = s.created
    · subst hne
      obtain rfl := Option.some.inj ((launch_flights_self s key retain).symm.trans ht)
      rfl
    · rw [launch_flights_of_ne s key retain hne, hn] at ht
      cases ht

theorem Inv.launch (h : Inv maxEntries s) {key : K} (hkey : s.inflight.get? key = none)
    (retain : Bool) : Inv maxEntries (s.launch key retain) :=
  have ha := advance_launch h.tracks key retain
  h.of_advance ha (h.tracks.launch hkey) (h.caches.of_subset ha (fun _ _ h => h) (le_refl _)) rfl

omit [DecidableEq K] in
theorem advance_join {t : ℕ} {flight : InFlight K V} (ht : s.flights t = some flight) (ttl : ℤ) :
    Advance s (s.join t flight ttl) := by
  unfold State.join
  split_ifs
  · exact Advance.of_update rfl rfl ht rfl rfl (Evolves.refl _ _ _)
  · exact Advance.of_flights (le_refl _) (fun _ => le_refl _) rfl

theorem Inv.join (h : Inv maxEntries s) {t : ℕ} {flight : InFlight K V}
    (ht : s.flights t = some flight) (ttl : ℤ) : Inv maxEntries (s.join t flight ttl) := by
  have ha := advance_join ht ttl
  unfold State.join at ha ⊢
  split_ifs at ha ⊢ with httl
  · exact h.of_advance ha (h.tracks.update ht rfl rfl rfl rfl Iff.rfl)
      (h.caches.of_subset ha (fun _ _ h => h) (le_refl _)) rfl
  · exact h

/-- The entries after an eviction are some of those before, and within the bound where
there was one too many. -/
theorem evictIfNeeded_spec (maxEntries : ℤ) (entries : OrderedDict K (CachedEntry V))
    (hsize : entries.size ≤ bound maxEntries + 1) :
    (∀ k e, (State.evictIfNeeded maxEntries entries).get? k = some e →
      entries.get? k = some e) ∧
      (State.evictIfNeeded maxEntries entries).size ≤ bound maxEntries := by
  unfold State.evictIfNeeded
  split_ifs with hle
  · exact ⟨fun _ _ h => h, hle⟩
  · obtain ⟨key, hkey, hmem⟩ := entries.exists_oldest? CachedEntry.fetchedMonotonic (by omega)
    rw [hkey]
    refine ⟨fun _ _ => OrderedDict.get?_of_get?_pop, ?_⟩
    have hlt : (entries.pop key).size < entries.size := OrderedDict.size_pop_lt hmem
    show (entries.pop key).size ≤ bound maxEntries
    omega

/-- What is published is what was there, and the value of the generation. -/
theorem publish_spec (h : Caches maxEntries s) (t : ℕ) (flight : InFlight K V) (value : V) :
    (∀ k e, (s.publish maxEntries t flight value).get? k = some e →
      s.entries.get? k = some e ∨ k = flight.key ∧ e = ⟨value, s.now, t⟩) ∧
      (s.publish maxEntries t flight value).size ≤ bound maxEntries := by
  unfold State.publish
  split_ifs
  · have hset : (s.entries.set flight.key ⟨value, s.now, t⟩).size ≤ bound maxEntries + 1 :=
      le_trans OrderedDict.size_set_le (Nat.add_le_add_right h.size 1)
    obtain ⟨hsub, hsize⟩ := evictIfNeeded_spec maxEntries _ hset
    refine ⟨fun k e he => ?_, hsize⟩
    have hget := hsub k e he
    rw [OrderedDict.get?_set] at hget
    split_ifs at hget with hk
    · exact .inr ⟨hk, (Option.some.inj hget).symm⟩
    · exact .inl hget
  · exact ⟨fun _ _ h => .inl h, h.size⟩

theorem Evolves.done {now : ℚ} {invalidations begun : ℕ} {task : TaskState V}
    (hfinished : task.finished? = some now) (hbegun : task.begun? = some begun) :
    Evolves now invalidations (.running begun) task where
  finished := fun x h => by cases h
  later := fun x h => .inr (Option.some.inj (hfinished.symm.trans h)).le
  begun := fun n h => .inl (hbegun.symm.trans h)

theorem advance_fetched (h : Tracks s) {t : ℕ} {flight : InFlight K V} {begun : ℕ}
    (ht : s.flights t = some flight) (htask : flight.task = .running begun) (value : V) :
    Advance s (s.fetched maxEntries t flight begun value) := by
  have hin := h.pending t flight ht (by rw [htask]; rfl)
  rw [State.fetched, if_pos hin]
  exact Advance.of_update rfl rfl ht rfl rfl (htask ▸ Evolves.done rfl rfl)

theorem Inv.fetched (h : Inv maxEntries s) {t : ℕ} {flight : InFlight K V} {begun : ℕ}
    (ht : s.flights t = some flight) (htask : flight.task = .running begun) (value : V) :
    Inv maxEntries (s.fetched maxEntries t flight begun value) := by
  have hp : flight.task.Pending := by rw [htask]; rfl
  have ha : Advance s (s.fetched maxEntries t flight begun value) :=
    advance_fetched h.tracks ht htask value
  have hin := h.tracks.pending t flight ht hp
  obtain ⟨hfrom, hsize⟩ := publish_spec h.caches t flight value
  rw [State.fetched, if_pos hin] at ha ⊢
  refine h.of_advance ha (h.tracks.finish ht hp rfl rfl rfl (by simp [TaskState.Pending,
    TaskState.finished?])) ⟨fun k e he => ?_, hsize⟩ rfl
  rcases hfrom k e he with hold | ⟨rfl, rfl⟩
  · obtain ⟨b, hfetched⟩ := h.caches.entry k e hold
    exact ⟨b, hfetched.advance ha⟩
  · exact ⟨begun, _, Function.update_self .., rfl, rfl⟩

theorem advance_raised (h : Tracks s) {t : ℕ} {flight : InFlight K V} {begun : ℕ}
    (ht : s.flights t = some flight) (htask : flight.task = .running begun) :
    Advance s (s.raised t flight begun) := by
  have hin := h.pending t flight ht (by rw [htask]; rfl)
  rw [State.raised, if_pos hin]
  exact Advance.of_update rfl rfl ht rfl rfl (htask ▸ Evolves.done rfl rfl)

theorem Inv.raised (h : Inv maxEntries s) {t : ℕ} {flight : InFlight K V} {begun : ℕ}
    (ht : s.flights t = some flight) (htask : flight.task = .running begun) :
    Inv maxEntries (s.raised t flight begun) := by
  have hp : flight.task.Pending := by rw [htask]; rfl
  have ha := advance_raised h.tracks ht htask
  have hin := h.tracks.pending t flight ht hp
  rw [State.raised, if_pos hin] at ha ⊢
  exact h.of_advance ha (h.tracks.finish ht hp rfl rfl rfl (by simp [TaskState.Pending,
    TaskState.finished?])) (h.caches.of_subset ha (fun _ _ h => h) (le_refl _)) rfl

omit [DecidableEq K] in
theorem advance_run {t : ℕ} {flight : InFlight K V} (ht : s.flights t = some flight)
    (htask : flight.task = .scheduled) : Advance s (s.run t flight) := by
  refine Advance.of_update rfl rfl ht rfl rfl ?_
  rw [htask]
  exact
    { finished := fun _ h => by cases h
      later := fun _ h => by cases h
      begun := fun _ h => .inr (Option.some.inj h).le }

theorem Inv.run (h : Inv maxEntries s) {t : ℕ} {flight : InFlight K V}
    (ht : s.flights t = some flight) (htask : flight.task = .scheduled) :
    Inv maxEntries (s.run t flight) := by
  have ha := advance_run ht htask
  refine h.of_advance ha (h.tracks.update ht rfl rfl rfl rfl ?_)
    (h.caches.of_subset ha (fun _ _ h => h) (le_refl _)) rfl
  rw [htask]
  exact Iff.rfl

omit [DecidableEq K] in
theorem advance_pass {seconds : ℚ} (h : 0 ≤ seconds) :
    Advance s { s with now := s.now + seconds } :=
  Advance.of_flights (le_add_of_nonneg_right h) (fun _ => le_refl _) rfl

theorem advance_invalidate (key : Option K) : Advance s (s.invalidate key) := by
  refine Advance.of_flights (le_refl _) (fun k => ?_) rfl
  show s.invalidations k ≤ if Covers key k then s.invalidations k + 1 else s.invalidations k
  split_ifs
  · exact Nat.le_succ _
  · exact le_refl _

/-- What an invalidation leaves was there, under a key that it does not cover. -/
theorem invalidate_spec (s : State K V) (key : Option K) :
    (∀ k e, (s.invalidate key).entries.get? k = some e →
      ¬ Covers key k ∧ s.entries.get? k = some e) ∧
      (s.invalidate key).entries.size ≤ s.entries.size := by
  cases key with
  | none => exact ⟨fun _ _ h => absurd h (by simp [State.invalidate]), Nat.zero_le _⟩
  | some key =>
    refine ⟨fun k e h => ?_, OrderedDict.size_pop_le⟩
    have h : (s.entries.pop key).get? k = some e := h
    rw [OrderedDict.get?_pop] at h
    split_ifs at h with hk
    exact ⟨fun hc => hk (hc key rfl).symm, h⟩

theorem Inv.invalidate (h : Inv maxEntries s) (key : Option K) :
    Inv maxEntries (s.invalidate key) := by
  have ha := advance_invalidate (s := s) key
  obtain ⟨hsub, hsize⟩ := invalidate_spec s key
  exact h.of_advance ha (h.tracks.of_eq rfl rfl rfl)
    (h.caches.of_subset ha (fun k e he => (hsub k e he).2) hsize) rfl

theorem freshEntry_spec {key : K} {ttl : ℤ} {entry : CachedEntry V}
    (h : s.freshEntry key ttl = some entry) :
    0 < ttl ∧ s.entries.get? key = some entry ∧ s.now - entry.fetchedMonotonic < ttl := by
  unfold State.freshEntry at h
  split_ifs at h with httl
  obtain ⟨hget, hlt⟩ := Option.filter_eq_some_iff.mp h
  exact ⟨httl, hget, by simpa using hlt⟩

/-- The cases of `read`: served from an entry, the first of its generation, or one more
reader of it. -/
theorem read_cases (h : Tracks s) (r : ℕ) (key : K) (ttlSeconds : ℤ) :
    (∃ entry, s.freshEntry key (max 0 ttlSeconds) = some entry ∧
      s.read r key ttlSeconds = s.setReader r ⟨key, max 0 ttlSeconds, s.now,
        s.invalidations key, .served ⟨entry.value, true⟩ entry.flight s.now⟩) ∨
    (s.inflight.get? key = none ∧ s.read r key ttlSeconds =
      ((s.forget key (max 0 ttlSeconds)).launch key (0 < max 0 ttlSeconds)).setReader r
        ⟨key, max 0 ttlSeconds, s.now, s.invalidations key, .waiting s.created false⟩) ∨
    (∃ t flight, s.flights t = some flight ∧ flight.key = key ∧ flight.task.Pending ∧
      s.read r key ttlSeconds =
        ((s.forget key (max 0 ttlSeconds)).join t flight (max 0 ttlSeconds)).setReader r
          ⟨key, max 0 ttlSeconds, s.now, s.invalidations key, .waiting t true⟩) := by
  unfold State.read
  dsimp only
  cases hfresh : s.freshEntry key (max 0 ttlSeconds) with
  | some entry => exact .inl ⟨entry, rfl, rfl⟩
  | none =>
    cases hin : s.inflight.get? key with
    | none => exact .inr (.inl ⟨rfl, rfl⟩)
    | some t =>
      obtain ⟨flight, ht, hkey, hp⟩ := h.inflight key t hin
      refine .inr (.inr ⟨t, flight, ht, hkey, hp, ?_⟩)
      dsimp only
      rw [ht]

omit [DecidableEq K] in
/-- `join` is about the generation only, and whether it is retained. -/
theorem join_spec (s : State K V) {t : ℕ} {flight : InFlight K V}
    (ht : s.flights t = some flight) (ttl : ℤ) :
    ∃ flights retain, s.join t flight ttl = { s with flights } ∧
      flights t = some { flight with retain } := by
  unfold State.join
  split_ifs
  · exact ⟨_, false, rfl, Function.update_self ..⟩
  · exact ⟨_, flight.retain, rfl, ht⟩

theorem Inv.read (h : Inv maxEntries s) (r : ℕ) (key : K) (ttlSeconds : ℤ) :
    Inv maxEntries (s.read r key ttlSeconds) := by
  have hforget := h.forget key (max 0 ttlSeconds)
  obtain ⟨entries, heq, -, -⟩ := forget_spec s key (max 0 ttlSeconds)
  rcases read_cases h.tracks r key ttlSeconds with
    ⟨entry, hfresh, hread⟩ | ⟨hin, hread⟩ | ⟨t, flight, ht, hkey, hp, hread⟩
  · rw [hread]
    obtain ⟨httl, hget, hlt⟩ := freshEntry_spec hfresh
    obtain ⟨begun, hfetched⟩ := h.caches.entry key entry hget
    exact h.setReader (le_refl _) (le_refl _)
      ⟨begun, entry.fetchedMonotonic, hfetched, fun _ => ⟨httl, hlt, .inl hlt⟩⟩
  · rw [hread]
    rw [heq] at hforget ⊢
    exact (hforget.launch hin _).setReader (le_refl _) (le_refl _)
      ⟨_, launch_flights_self _ key _, rfl, fun x hx => by cases hx⟩
  · rw [hread]
    rw [heq] at hforget ⊢
    have hjoin := hforget.join (t := t) ht (max 0 ttlSeconds)
    obtain ⟨flights, retain, hstate, hflight⟩ :=
      join_spec { s with entries } ht (max 0 ttlSeconds)
    rw [hstate] at hjoin ⊢
    refine hjoin.setReader (le_refl _) (le_refl _) ⟨_, hflight, hkey, fun x hx => ?_⟩
    rw [show _ = none from hp] at hx
    cases hx

/-- What each step does, under the source's names, with its guard. -/
inductive Steps (maxEntries : ℤ) (s : State K V) : Event K V → State K V → Prop
  | read {r key ttlSeconds} : s.readers r = none →
      Steps maxEntries s (.read r key ttlSeconds) (s.read r key ttlSeconds)
  | run {t flight} : s.flights t = some flight → flight.task = .scheduled →
      Steps maxEntries s (.run t) (s.run t flight)
  | fetched {t flight begun value} : s.flights t = some flight → flight.task = .running begun →
      Steps maxEntries s (.fetched t value) (s.fetched maxEntries t flight begun value)
  | raised {t flight begun} : s.flights t = some flight → flight.task = .running begun →
      Steps maxEntries s (.raised t) (s.raised t flight begun)
  | wake {r reader t joined flight state} : s.readers r = some reader →
      reader.state = .waiting t joined → s.flights t = some flight →
      s.resumed reader t joined flight = some state →
      Steps maxEntries s (.wake r) (s.setReader r { reader with state })
  | cancel {r reader t joined} : s.readers r = some reader → reader.state = .waiting t joined →
      Steps maxEntries s (.cancel r) (s.setReader r { reader with state := .cancelled })
  | invalidate {key} : Steps maxEntries s (.invalidate key) (s.invalidate key)
  | pass {seconds} : 0 ≤ seconds →
      Steps maxEntries s (.pass seconds) { s with now := s.now + seconds }

theorem step_cases {e : Event K V} (h : step maxEntries s e = some s') :
    Steps maxEntries s e s' := by
  cases e with
  | read r key ttlSeconds =>
    simp only [step] at h
    split at h
    · rename_i hr
      exact Option.some.inj h ▸ .read hr
    · cases h
  | run t =>
    obtain ⟨flight, ht, h⟩ := Option.bind_eq_some_iff.mp h
    split at h
    · rename_i htask
      exact Option.some.inj h ▸ .run ht htask
    · cases h
  | fetched t value =>
    obtain ⟨flight, ht, h⟩ := Option.bind_eq_some_iff.mp h
    split at h
    · rename_i begun htask
      exact Option.some.inj h ▸ .fetched ht htask
    · cases h
  | raised t =>
    obtain ⟨flight, ht, h⟩ := Option.bind_eq_some_iff.mp h
    split at h
    · rename_i begun htask
      exact Option.some.inj h ▸ .raised ht htask
    · cases h
  | wake r =>
    obtain ⟨reader, hr, h⟩ := Option.bind_eq_some_iff.mp h
    split at h
    · rename_i t joined hstate
      obtain ⟨flight, ht, h⟩ := Option.bind_eq_some_iff.mp h
      obtain ⟨state, hresumed, h⟩ := Option.bind_eq_some_iff.mp h
      exact Option.some.inj h ▸ .wake hr hstate ht hresumed
    · cases h
  | cancel r =>
    obtain ⟨reader, hr, h⟩ := Option.bind_eq_some_iff.mp h
    split at h
    · rename_i t joined hstate
      exact Option.some.inj h ▸ .cancel hr hstate
    · cases h
  | invalidate key => exact Option.some.inj h ▸ .invalidate
  | pass seconds =>
    simp only [step] at h
    split_ifs at h with hseconds
    exact Option.some.inj h ▸ .pass hseconds

omit [DecidableEq K] in
/-- What a reader makes of its generation is what that generation came to. -/
theorem holds_resumed {reader : Reader K V} {t : ℕ} {joined : Bool} {flight : InFlight K V}
    {state : ReaderState V} (h : Holds s reader) (hstate : reader.state = .waiting t joined)
    (ht : s.flights t = some flight) (hresumed : s.resumed reader t joined flight = some state) :
    Holds s { reader with state } := by
  rw [Holds, hstate] at h
  obtain ⟨g, hg, hkey, hfinished⟩ := h
  obtain rfl : flight = g := Option.some.inj (ht.symm.trans hg)
  unfold State.resumed at hresumed
  split at hresumed
  · rename_i begun value finished htask
    have hle : reader.startedAt ≤ finished := hfinished finished (by rw [htask]; rfl)
    obtain rfl := Option.some.inj hresumed
    refine ⟨begun, finished, ⟨flight, ht, hkey, htask⟩, fun hhit => ?_⟩
    have httl : 0 < reader.ttl := by
      simp only [Bool.and_eq_true, decide_eq_true_eq] at hhit
      exact hhit.1.2
    have httl' : (0 : ℚ) < reader.ttl := Int.cast_pos.mpr httl
    exact ⟨httl, by show reader.startedAt - finished < reader.ttl; linarith, .inr hle⟩
  · rename_i begun finished htask
    obtain rfl := Option.some.inj hresumed
    exact ⟨flight, begun, finished, ht, hkey, htask, hfinished finished (by rw [htask]; rfl)⟩
  · cases hresumed
  · cases hresumed

theorem inv_step {e : Event K V} (h : Inv maxEntries s) (hstep : step maxEntries s e = some s') :
    Inv maxEntries s' := by
  cases step_cases hstep with
  | read => exact h.read ..
  | run ht htask => exact h.run ht htask
  | fetched ht htask => exact h.fetched ht htask _
  | raised ht htask => exact h.raised ht htask
  | wake hr hstate ht hresumed =>
    obtain ⟨hstarted, hepoch⟩ := h.started _ _ hr
    exact h.setReader hstarted hepoch (holds_resumed (h.holds _ _ hr) hstate ht hresumed)
  | cancel hr hstate =>
    obtain ⟨hstarted, hepoch⟩ := h.started _ _ hr
    exact h.setReader hstarted hepoch trivial
  | invalidate => exact h.invalidate _
  | pass hseconds =>
    have ha := advance_pass (s := s) hseconds
    exact h.of_advance ha (h.tracks.of_eq rfl rfl rfl)
      (h.caches.of_subset ha (fun _ _ h => h) (le_refl _)) rfl

/-- **In every run** one key has at most one fetch in flight, exceptions are not cached,
the entries stay within the bound and a hit is young. -/
theorem run_safe {now : ℚ} (h : (system maxEntries).Run always (init now : State K V) s) :
    Safe maxEntries s :=
  (h.invariant (I := Inv maxEntries) (fun _ _ _ hi _ hs => inv_step hi hs)
    (inv_init maxEntries now)).safe

end FinancialDashboard.Paisa.ReportCache
