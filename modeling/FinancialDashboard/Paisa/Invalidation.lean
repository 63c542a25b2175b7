import FinancialDashboard.Paisa.ReportCache

/-!
# Invalidating the report cache

`invalidate` drops the entries and leaves the generations in flight as they are: what
is asked for after it joins a fetch that began before it, and may find an entry that
such a fetch has published since.  (A reader with no time to live does see to the
generation in flight: it is not to be retained.)

* `Fresh`: nothing cached and nothing in flight began before an invalidation of its key.
* `reads_fresh`: where no invalidation falls on a fetch that has begun, that is kept,
  and no reader is served what is older than an invalidation before it.
* `not_servedFresh`: a reader that joins a fetch after the invalidation.
-/

namespace FinancialDashboard.Paisa.ReportCache

open Transition (System)
open Transition.System (always)

variable {K V : Type} [DecidableEq K] {maxEntries : ℤ} {s s' : State K V}

/-- No reader is served a value whose fetch began before an invalidation of its key that
had returned when the reader started. -/
def ServedFresh (s : State K V) : Prop :=
  ∀ r reader read t servedAt, s.readers r = some reader →
    reader.state = .served read t servedAt →
    ∃ begun finished, Fetched s t reader.key read.value begun finished ∧ reader.epoch ≤ begun

/-- No fetch of a key the invalidation covers has begun and not ended. -/
def Undisturbed (s : State K V) : Event K V → Prop
  | .invalidate key => ∀ t flight, s.flights t = some flight → Covers key flight.key →
      flight.task.isRunning = false
  | _ => True

/-- The generation a reader was given or waits for. -/
def ReaderState.flight? : ReaderState V → Option ℕ
  | waiting t _ | served _ t _ | failed t => some t
  | cancelled => none

omit [DecidableEq K] in
theorem flight?_resumed {reader : Reader K V} {t : ℕ} {joined : Bool} {flight : InFlight K V}
    {state : ReaderState V} (h : s.resumed reader t joined flight = some state) :
    state.flight? = some t := by
  unfold State.resumed at h
  split at h
  · exact Option.some.inj h ▸ rfl
  · exact Option.some.inj h ▸ rfl
  · cases h
  · cases h

/-- No invalidation of the key comes between the fetch and the reader. -/
def HoldsFresh (s : State K V) (reader : Reader K V) : Prop :=
  ∀ t flight n, reader.state.flight? = some t → s.flights t = some flight →
    flight.task.begun? = some n → reader.epoch ≤ n

structure Fresh (s : State K V) : Prop where
  entry : ∀ k e flight n, s.entries.get? k = some e → s.flights e.flight = some flight →
    flight.task.begun? = some n → s.invalidations k ≤ n
  pending : ∀ t flight n, s.flights t = some flight → flight.task.Pending →
    flight.task.begun? = some n → s.invalidations flight.key ≤ n
  readers : ∀ r reader, s.readers r = some reader → HoldsFresh s reader

omit [DecidableEq K] in
theorem Holds.flight {reader : Reader K V} (h : Holds s reader) {t : ℕ}
    (ht : reader.state.flight? = some t) :
    ∃ flight, s.flights t = some flight ∧ flight.key = reader.key := by
  unfold Holds at h
  cases hstate : reader.state with
  | waiting u joined =>
    rw [hstate] at h ht
    obtain rfl := Option.some.inj ht
    obtain ⟨flight, hflight, hkey, -⟩ := h
    exact ⟨flight, hflight, hkey⟩
  | served read u servedAt =>
    rw [hstate] at h ht
    obtain rfl := Option.some.inj ht
    obtain ⟨_, _, ⟨flight, hflight, hkey, -⟩, -⟩ := h
    exact ⟨flight, hflight, hkey⟩
  | failed u =>
    rw [hstate] at h ht
    obtain rfl := Option.some.inj ht
    obtain ⟨flight, _, _, hflight, hkey, -⟩ := h
    exact ⟨flight, hflight, hkey⟩
  | cancelled =>
    rw [hstate] at ht
    cases ht

omit [DecidableEq K] in
theorem HoldsFresh.advance {reader : Reader K V} (h : HoldsFresh s reader)
    (hholds : Holds s reader) (hepoch : reader.epoch ≤ s.invalidations reader.key)
    (ha : Advance s s') : HoldsFresh s' reader := by
  intro t flight' n ht hflight' hn
  obtain ⟨flight, hflight, hkey⟩ := hholds.flight ht
  obtain ⟨g, hg, -, hev⟩ := ha.flight t flight hflight
  obtain rfl : flight' = g := Option.some.inj (hflight'.symm.trans hg)
  rcases hev.begun n hn with hbegun | hle
  · exact h t flight n ht hflight hbegun
  · exact le_trans hepoch (hkey ▸ hle)

/-- A fetch that is not done by the end of a step was not done before, and either had begun
by then or begins after every invalidation so far. -/
theorem Fresh.pending_advance (h : Fresh s) (ha : Advance s s') {t : ℕ}
    {flight' : InFlight K V} {n : ℕ} (ht : s'.flights t = some flight')
    (hp : flight'.task.Pending) (hn : flight'.task.begun? = some n) :
    s.invalidations flight'.key ≤ n := by
  cases hold : s.flights t with
  | none =>
    rw [ha.new t flight' ht hold] at hn
    cases hn
  | some flight =>
    obtain ⟨g, hg, hkey, hev⟩ := ha.flight t flight hold
    obtain rfl : flight' = g := Option.some.inj (ht.symm.trans hg)
    have hpending : flight.task.Pending := by
      by_contra hne
      obtain ⟨x, hx⟩ := Option.ne_none_iff_exists'.mp hne
      rw [hev.finished x hx] at hp
      exact hne hp
    rw [hkey]
    rcases hev.begun n hn with hbegun | hle
    · exact h.pending t flight n hold hpending hbegun
    · exact hle

theorem Fresh.of_advance (h : Fresh s) (hi : Inv maxEntries s) (ha : Advance s s')
    (hinv : s'.invalidations = s.invalidations)
    (hentries : ∀ k e, s'.entries.get? k = some e → s.entries.get? k = some e ∨
      ∀ flight n, s'.flights e.flight = some flight → flight.task.begun? = some n →
        s.invalidations k ≤ n)
    (hreaders : s'.readers = s.readers) : Fresh s' where
  entry := fun k e flight' n he ht hn => by
    rw [hinv]
    rcases hentries k e he with hold | hnew
    · obtain ⟨begun, flight, hflight, hkey, htask⟩ := hi.caches.entry k e hold
      obtain ⟨g, hg, -, hev⟩ := ha.flight _ flight hflight
      obtain rfl : flight' = g := Option.some.inj (ht.symm.trans hg)
      rcases hev.begun n hn with hbegun | hle
      · exact h.entry k e flight n hold hflight hbegun
      · exact hkey ▸ hle
    · exact hnew flight' n ht hn
  pending := fun t flight n ht hp hn => hinv ▸ h.pending_advance ha ht hp hn
  readers := fun r reader hr => by
    rw [hreaders] at hr
    exact (h.readers r reader hr).advance (hi.holds r reader hr) (hi.started r reader hr).2 ha

theorem Fresh.setReader (h : Fresh s) {r : ℕ} {reader : Reader K V}
    (hreader : HoldsFresh s reader) : Fresh (s.setReader r reader) where
  entry := h.entry
  pending := h.pending
  readers := fun u x hu => by
    by_cases hur : u = r
    · subst hur
      obtain rfl : reader = x := by simpa [State.setReader] using hu
      exact hreader
    · exact h.readers u x (by simpa [State.setReader, hur] using hu)

/-- An invalidation that falls on no fetch takes away what it makes stale. -/
theorem Fresh.invalidate (h : Fresh s) (hi : Inv maxEntries s) {key : Option K}
    (hok : Undisturbed s (.invalidate key)) : Fresh (s.invalidate key) where
  entry := fun k e flight n he ht hn => by
    obtain ⟨hnot, hold⟩ := (invalidate_spec s key).1 k e he
    show (if Covers key k then _ else _) ≤ n
    rw [if_neg hnot]
    exact h.entry k e flight n hold ht hn
  pending := fun t flight n ht hp hn => by
    show (if Covers key flight.key then _ else _) ≤ n
    split_ifs with hc
    · have hrunning := hok t flight ht hc
      cases htask : flight.task with
      | scheduled =>
        rw [htask] at hn
        cases hn
      | running begun =>
        rw [htask] at hrunning
        cases hrunning
      | returned begun value finished =>
        rw [htask] at hp
        cases hp
      | raised begun finished =>
        rw [htask] at hp
        cases hp
    · exact h.pending t flight n ht hp hn
  readers := fun r reader hr => (h.readers r reader hr).advance (hi.holds r reader hr)
    (hi.started r reader hr).2 (advance_invalidate key)

theorem Fresh.read (h : Fresh s) (hi : Inv maxEntries s) (r : ℕ) (key : K) (ttlSeconds : ℤ) :
    Fresh (s.read r key ttlSeconds) := by
  obtain ⟨entries, heq, hsub, -⟩ := forget_spec s key (max 0 ttlSeconds)
  have hiforget := hi.forget key (max 0 ttlSeconds)
  have hforget : Fresh (s.forget key (max 0 ttlSeconds)) := by
    have ha := advance_forget (s := s) key (max 0 ttlSeconds)
    rw [heq] at ha ⊢
    exact h.of_advance hi ha rfl (fun k e he => .inl (hsub k e he)) rfl
  rw [heq] at hforget hiforget
  rcases read_cases hi.tracks r key ttlSeconds with
    ⟨entry, hfresh, hread⟩ | ⟨hin, hread⟩ | ⟨t, flight, ht, hkey, hp, hread⟩
  · rw [hread]
    obtain ⟨-, hget, -⟩ := freshEntry_spec hfresh
    refine h.setReader fun u flight n hu hflight hn => ?_
    obtain rfl := Option.some.inj hu
    exact h.entry key entry flight n hget hflight hn
  · rw [hread, heq]
    have ha := advance_launch hiforget.tracks key (0 < max 0 ttlSeconds)
    refine (hforget.of_advance hiforget ha rfl (fun _ _ he => .inl he) rfl).setReader
      fun u flight n hu hflight hn => ?_
    obtain rfl := Option.some.inj hu
    obtain rfl := Option.some.inj ((launch_flights_self _ key _).symm.trans hflight)
    cases hn
  · rw [hread, heq]
    have ha := advance_join (s := { s with entries }) ht (max 0 ttlSeconds)
    obtain ⟨flights, retain, hstate, hself⟩ :=
      join_spec { s with entries } ht (max 0 ttlSeconds)
    rw [hstate] at ha ⊢
    refine (hforget.of_advance hiforget ha rfl (fun _ _ he => .inl he) rfl).setReader
      fun u g n hu hg hn => ?_
    obtain rfl := Option.some.inj hu
    obtain rfl := Option.some.inj (hself.symm.trans hg)
    exact hkey ▸ h.pending t flight n ht hp hn

theorem fresh_step {e : Event K V} (h : Fresh s) (hi : Inv maxEntries s) (hok : Undisturbed s e)
    (hstep : step maxEntries s e = some s') : Fresh s' := by
  cases step_cases hstep with
  | read => exact h.read hi ..
  | run ht htask =>
    exact h.of_advance hi (advance_run ht htask) rfl (fun _ _ he => .inl he) rfl
  | @fetched t flight begun value ht htask =>
    have ha : Advance s (s.fetched maxEntries t flight begun value) :=
      advance_fetched hi.tracks ht htask value
    have hin := hi.tracks.pending t flight ht (by rw [htask]; rfl)
    obtain ⟨hfrom, -⟩ := publish_spec hi.caches t flight value
    rw [State.fetched, if_pos hin] at ha ⊢
    refine h.of_advance hi ha rfl (fun k e he => (hfrom k e he).imp_right ?_) rfl
    rintro ⟨rfl, rfl⟩ g n hg hn
    obtain rfl := Option.some.inj ((setFlight_flights_self s t _).symm.trans hg)
    refine h.pending t flight n ht (by rw [htask]; rfl) ?_
    rw [htask]
    exact hn
  | @raised t flight begun ht htask =>
    have ha := advance_raised hi.tracks ht htask
    have hin := hi.tracks.pending t flight ht (by rw [htask]; rfl)
    rw [State.raised, if_pos hin] at ha ⊢
    exact h.of_advance hi ha rfl (fun _ _ he => .inl he) rfl
  | @wake r reader t joined flight state hr hstate ht hresumed =>
    refine h.setReader fun u g n hu hg hn => h.readers r reader hr u g n ?_ hg hn
    rw [hstate]
    exact (flight?_resumed hresumed).symm.trans hu
  | cancel hr hstate => exact h.setReader fun u g n hu _ _ => by cases hu
  | invalidate => exact h.invalidate hi hok
  | pass hseconds =>
    exact h.of_advance hi (advance_pass hseconds) rfl (fun _ _ he => .inl he) rfl

theorem fresh_init (now : ℚ) : Fresh (init now : State K V) where
  entry := fun _ _ _ _ h => by cases h
  pending := fun _ _ _ h => by cases h
  readers := fun _ _ h => by cases h

theorem Fresh.served (h : Fresh s) (hi : Inv maxEntries s) : ServedFresh s := by
  intro r reader read t servedAt hr hstate
  have hholds := hi.holds r reader hr
  rw [Holds, hstate] at hholds
  obtain ⟨begun, finished, ⟨flight, ht, hkey, htask⟩, -⟩ := hholds
  refine ⟨begun, finished, ⟨flight, ht, hkey, htask⟩, ?_⟩
  exact h.readers r reader hr t flight begun (by rw [hstate]; rfl) ht (by rw [htask]; rfl)

/-- **The cache is coherent where no invalidation falls on a fetch.**  In every run one key
has at most one fetch in flight, exceptions are not cached, the entries stay within the
bound and a hit is young; in a run without such an invalidation no reader is served what
had begun to be fetched before an invalidation that had returned when it started. -/
theorem reads_fresh (maxEntries : ℤ) (now : ℚ) :
    (∀ s, (system maxEntries).Run always (init now : State K V) s → Safe maxEntries s) ∧
      ∀ s, (system maxEntries).Run Undisturbed (init now : State K V) s →
        Safe maxEntries s ∧ ServedFresh s := by
  refine ⟨fun s h => run_safe h, fun s h => ?_⟩
  have hboth : Inv maxEntries s ∧ Fresh s :=
    h.invariant (I := fun s => Inv maxEntries s ∧ Fresh s)
      (fun _ _ _ hi hok hs => ⟨inv_step hi.1 hs, fresh_step hi.2 hi.1 hok hs⟩)
      ⟨inv_init maxEntries now, fresh_init now⟩
  exact ⟨hboth.1.safe, hboth.2.served hboth.1⟩

/-- A report is read and cached. -/
def cachedTrace : List (Event ℕ ℕ) :=
  [.read 0 0 60, .run 0, .fetched 0 5, .wake 0, .pass 1]

/-- It is dropped, and the second of the next two readers joins the fetch of the first. -/
def droppedTrace : List (Event ℕ ℕ) :=
  [.invalidate (some 0), .read 1 0 60, .run 1, .read 2 0 60, .fetched 1 6, .wake 1, .wake 2]

theorem reads_fresh_dropped : ∃ s : State ℕ ℕ,
    (s.readers 2).map Reader.state = some (.served ⟨6, true⟩ 1 1) ∧ Safe 64 s ∧ ServedFresh s := by
  have hcached : ((system 64).exec (init 0) cachedTrace).map
      (fun s => (s.created, (s.flights 0).map InFlight.task)) =
      some (1, some (.returned 0 5 0)) := by
    decide +kernel
  have hview : ((system 64).exec (init 0) (cachedTrace ++ droppedTrace)).map
      (fun s => (s.readers 2).map Reader.state) = some (some (.served ⟨6, true⟩ 1 1)) := by
    decide +kernel
  have hquiet : (system 64).Meets Undisturbed (init 0) cachedTrace :=
    System.meets_of_always _ _ (by simp [cachedTrace, Undisturbed])
  obtain ⟨s, hs, hrun, hs0⟩ := System.run_of_view hquiet hcached
  obtain ⟨hcreated, htask⟩ := Prod.mk.inj hs0
  have hidle : Undisturbed s (.invalidate (some 0)) := by
    intro t flight ht _
    have hi : Inv 64 s := hrun.invariant (I := Inv 64)
      (fun _ _ _ hi _ hstep => inv_step hi hstep) (inv_init 64 0)
    have hlt := hi.tracks.created t flight ht
    obtain rfl : t = 0 := by omega
    rw [ht, Option.map_some] at htask
    rw [Option.some.inj htask]
    rfl
  have hdropped : (system 64).Meets Undisturbed s droppedTrace :=
    ⟨hidle, fun u _ => System.meets_of_always _ u (by simp [Undisturbed])⟩
  rw [System.exec_append, hs] at hview
  obtain ⟨u, -, hrun', hu⟩ := System.run_of_view hdropped hview
  exact ⟨u, hu, (reads_fresh 64 0).2 u (hrun.trans hrun')⟩

/-- The report is dropped while it is fetched; who asks next joins the fetch. -/
def staleTrace : List (Event ℕ ℕ) :=
  [.read 0 0 60, .run 0, .invalidate (some 0), .read 1 0 60, .fetched 0 5, .wake 1]

theorem not_servedFresh : ¬ ∀ s : State ℕ ℕ,
    (system 64).Run always (init 0) s → Safe 64 s ∧ ServedFresh s := by
  intro h
  have hview : ((system 64).exec (init 0) staleTrace).map
      (fun s => (s.readers 1, s.flights 0)) =
      some (some ⟨0, 60, 0, 1, .served ⟨5, true⟩ 0 0⟩, some ⟨0, true, .returned 0 5 0⟩) := by
    decide +kernel
  obtain ⟨s, -, hrun, hs⟩ := System.run_of_view
    (System.meets_of_forall _ _ fun _ _ => trivial) hview
  obtain ⟨hreader, hflight⟩ := Prod.mk.inj hs
  obtain ⟨begun, finished, ⟨flight, ht, -, htask⟩, hle⟩ :=
    (h s hrun).2 1 _ _ 0 0 hreader rfl
  obtain rfl := Option.some.inj (hflight.symm.trans ht)
  obtain ⟨rfl, -, -⟩ := TaskState.returned.inj htask
  exact absurd hle (by decide)

end FinancialDashboard.Paisa.ReportCache
