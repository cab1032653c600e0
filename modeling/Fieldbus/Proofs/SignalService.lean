import Fieldbus.Proofs.Vigilance
/-!
Every signal of work is served.

The course of a drive (`Drive.Goes`) is its moves and what others do in between: they may run
scripts between any two moves, and at any time while nothing is due. A drive starts in a world that
scripts and drives have led to (`World.Reached`), so with all signals that were given before.

A signal that was not served yet holds the clock, and with every move the worker comes closer
(`Drive.Goes.served_or_closer`). So as long as the drive goes on the transport is served for it soon
(`no_signal_lost`), and if it ends, it ends after that or with it.

The bound is a number of moves and no time: the clock stands still while a signal waits, so it is
served in the same millisecond of the drive in which it was given. This is what a bell is for. With
a worker that only looks at the mark from time to time, a signal would wait until the next look.

A drive may end before a signal is served, in two ways. It comes to the end of its time, which it
can only do between rounds, when the worker sleeps and every signal has been served; or it is
stopped since the transport failed, and signals given after the last turn of the worker are not
served any more. Both are said in `Drive.KeepsWatch`.
-/

namespace Fieldbus

variable {σ : Type}

/-! ## Courses of a drive

`Drive.Goes` counts the moves of the drive and not what others do in between. The induction is on
the course; what others do leaves the drive vigilant, and leaves the number of moves to the worker's
turn, and a move makes that number smaller. -/

/-- **The course of a drive** among others, by the number of its moves. Between any two moves others
may run scripts; and while nothing is due, the clock may stop at any time for them to do so. -/
inductive Drive.Goes (s : DriveSetting σ) (d : Drive (σ × Diary)) : Nat → Drive (σ × Diary) → Prop
  | start : Goes s d 0 d
  | moves {k : Nat} {e e' : Drive (σ × Diary)} (before : Goes s d k e)
    (move : e.step s.noted = (none, e')) : Goes s d (k + 1) e'
  | others {k : Nat} {e : Drive (σ × Diary)} (before : Goes s d k e) {script : Script σ Unit}
    (leaves : script.CallsOnly Op.LeavesBell) :
    Goes s d k
      { e with
        world := (script.noted.run ((s.noted.environment e.now).perform s.depth) e.world).2 }
  | waits {k : Nat} {e : Drive (σ × Diary)} (before : Goes s d k e) (agenda : e.agenda = [])
    (quiet : (e.again || e.isWoken) = false) {time : Nat} (later : e.now ≤ time)
    (due : time ≤ (e.next s.stop).1) : Goes s d k { e with now := time }

namespace Drive.Goes
variable {s : DriveSetting σ} {past : Diary} {d e : Drive (σ × Diary)} {k n : Nat}

/-- A drive stays vigilant all along. -/
theorem vigilant (h : d.Goes s k e) (hs : s.LeavesBell) (hd : d.Vigilant past) :
    e.Vigilant past := by
  induction h with
  | start => exact hd
  | moves _ move ih =>
    have hmoved := ih.moved_step hs
    rw [move] at hmoved
    exact hmoved.goesOn rfl
  | others _ leaves ih => exact ih.script hs leaves
  | @waits k e _ _ _ time _ _ ih => exact ih.atTime time

/-- No call for service is ever forgotten. -/
theorem services_le (h : d.Goes s k e) (hs : s.LeavesBell) :
    d.world.gateway.services ≤ e.world.gateway.services := by
  induction h with
  | start => exact Nat.le_refl _
  | @moves k e e' _ move ih =>
    have hled := Drive.leadsBy_step s.noted Conduct.free_drives e
    rw [move] at hled
    exact Nat.le_trans ih hled.services_le
  | @others k e _ script leaves ih =>
    have hled := Environment.sparesBell_run (hs e.now).noted s.depth leaves.noted e.world
    exact Nat.le_trans ih hled.services_le
  | waits _ _ _ _ _ ih => exact ih

/-- **A signal is served, or soon will be:** as long as it is not, the clock stands still, and with
every move the worker comes closer. -/
theorem served_or_closer (h : d.Goes s k e) (hs : s.LeavesBell) (hd : d.Vigilant past)
    (hopen : d.worker ≠ .closing) (hn : n ∈ past) :
    n < e.world.gateway.services ∨
      e.worker ≠ .closing ∧ e.now = d.now ∧ movesToWork e.agenda + k ≤ movesToWork d.agenda := by
  induction h with
  | start => exact Or.inr ⟨hopen, rfl, Nat.le_refl _⟩
  | @moves k e e' before move ih =>
    have hvigilant := before.vigilant hs hd
    have hle : e.world.gateway.services ≤ e'.world.gateway.services :=
      (start.moves move).services_le hs
    have hmoved := hvigilant.moved_step hs
    rw [move] at hmoved
    rcases ih with hserved | ⟨hstill, hnow, hcloser⟩
    · exact Or.inl (Nat.lt_of_lt_of_le hserved hle)
    -- a signal that still waits is heeded, so it is served now or the worker comes closer
    · rcases hmoved.serves hstill n (hvigilant.heeds n (List.mem_append_left _ hn)) with
        hserved | ⟨-, hsame, hlate, hless⟩
      · exact Or.inl hserved
      · have hopen : e'.worker ≠ .closing := hsame ▸ hstill
        have hless : movesToWork e'.agenda < movesToWork e.agenda := hless
        exact Or.inr ⟨hopen, hlate.trans hnow, by omega⟩
  | @others k e before script leaves ih =>
    have hled := Environment.sparesBell_run (hs e.now).noted s.depth leaves.noted e.world
    exact ih.imp_left fun hserved => Nat.lt_of_lt_of_le hserved hled.services_le
  -- where the clock goes on, the worker sleeps and was not woken, so nothing waits
  | @waits k e before agenda quiet time _ _ ih =>
    have hvigilant := before.vigilant hs hd
    obtain ⟨deadline, hasleep⟩ := hvigilant.exists_asleep agenda
    exact Or.inl (hvigilant.served_of_quiet hasleep (Bool.or_eq_false_iff.1 quiet).2
      (hvigilant.heeds n (List.mem_append_left _ hn)))

/-- Once the worker is about to end a drive, no more moves follow but the last, and the clock stands
still. -/
theorem still_of_closing (h : d.Goes s k e) (hs : s.LeavesBell) (hd : d.Vigilant past)
    (hclosing : d.worker = .closing) : e.worker = .closing ∧ e.now = d.now ∧ k = 0 := by
  induction h with
  | start => exact ⟨hclosing, rfl, rfl⟩
  | @moves k e e' before move ih =>
    obtain ⟨rest, hwork⟩ := (before.vigilant hs hd).closing ih.1
    have hcloses : e.step s.noted = e.close := by
      unfold step work
      rw [hwork, ih.1]
    cases hcloses.symm.trans move
  | others _ _ ih => exact ih
  | @waits k e before agenda _ _ _ _ ih =>
    obtain ⟨rest, hwork⟩ := (before.vigilant hs hd).closing ih.1
    cases agenda.symm.trans hwork

end Drive.Goes

/-- As long as a drive does not end, its moves go on with a course. -/
theorem Drive.Goes.run {s : DriveSetting σ} {moves k : Nat} {d e e' : Drive (σ × Diary)}
    (h : d.Goes s k e) (hrun : Drive.run s.noted moves e = (.exhausted, e')) :
    d.Goes s (k + moves) e' := by
  induction moves generalizing k e with
  | zero =>
    cases hrun
    exact h
  | succ moves ih =>
    have hends := e.step_fst_ne s.noted
    unfold Drive.run at hrun
    cases hstep : e.step s.noted with
    | mk ending next =>
      rw [hstep] at hrun hends
      cases ending with
      | none =>
        have hgoes := ih (h.moves hstep) hrun
        rwa [Nat.add_right_comm] at hgoes
      | some ending =>
        cases hrun
        exact absurd rfl hends

/-! ## Before a drive starts

Signals may have been given before the drive starts, by scripts or in drives before, so the worlds
in which a drive may start are those that scripts and drives lead to from a new gateway. In each of
them no signal is lost, and a mark goes with a pending ring, since the worker of a drive that has
ended is up. -/

/-- The bell of a new gateway is silent, and no work is marked. -/
theorem Gateway.awake_of_make {settings : Settings} {device : Device} {g : Gateway}
    (h : make settings device = .ok g) : g.bell.Awake g.interrupt := by
  unfold make at h
  cases hc : Configuration.ofDevice device with
  | error e =>
    rw [hc] at h
    cases h
  | ok c =>
    rw [hc] at h
    cases h
    split <;> exact ⟨rfl, nofun⟩

/-- **The worlds that scripts and drives lead to** from a new gateway, one after the other, with all
their signals taken down. -/
inductive World.Reached : World (σ × Diary) → Prop
  | made {settings : Settings} {device : Device} {g : Gateway}
    (made : Gateway.make settings device = .ok g) (outside : σ) : Reached ⟨g, outside, []⟩
  | called {w : World (σ × Diary)} (before : Reached w) {env : Environment σ}
    (leaves : env.CallsOnly Op.LeavesBell) (depth : Nat) {script : Script σ Unit}
    (leaves' : script.CallsOnly Op.LeavesBell) :
    Reached (script.noted.run (env.noted.perform depth) w).2
  | driven {w : World (σ × Diary)} (before : Reached w) {s : DriveSetting σ} (leaves : s.LeavesBell)
    {timeline : List (TimelineEntry σ)} (leaves' : ∀ e ∈ timeline, e.script.CallsOnly Op.LeavesBell)
    {k : Nat} {d d' : Drive (σ × Diary)} {ending : Ending}
    (course : (Drive.start (timeline.map TimelineEntry.noted) w).Goes s k d)
    (ends : d.step s.noted = (some ending, d')) : Reached d'.world

/-- A drive starts vigilant. -/
theorem Drive.vigilant_start {timeline : List (TimelineEntry σ)}
    (htimeline : ∀ e ∈ timeline, e.script.CallsOnly Op.LeavesBell) {w : World (σ × Diary)}
    (hheeds : w.Heeds []) (hawake : w.gateway.bell.Awake w.gateway.interrupt) :
    (Drive.start (timeline.map TimelineEntry.noted) w).Vigilant [] where
  heeds := by
    have hquiet : ∀ c ∈ [Change.remark (.driven w.gateway.settings.tick
        w.gateway.settings.pollInterval)], c ≠ .takeInterrupt := List.forall_mem_singleton.2 nofun
    exact hheeds.after hquiet
  awake _ := ⟨hawake, List.mem_cons_of_mem _ List.mem_cons_self⟩
  guarded := nofun
  closing := nofun
  agenda := nodup_beginRound _
  timeline e he := by
    obtain ⟨entry, hentry, rfl⟩ := List.mem_map.1 he
    exact ⟨entry, htimeline entry hentry, rfl⟩

/-- Where scripts and drives have led, no signal is lost, and a mark goes with a pending ring. -/
theorem World.Reached.heeds_and_awake {w : World (σ × Diary)} (h : w.Reached) :
    w.Heeds [] ∧ w.gateway.bell.Awake w.gateway.interrupt := by
  induction h with
  | made made outside => exact ⟨nofun, Gateway.awake_of_make made⟩
  | @called w _ env leaves depth script leaves' ih =>
    have hled := Environment.sparesBell_run leaves.noted depth leaves'.noted w
    exact ⟨env.heeds_run depth script ih.1, hled.awake ih.2⟩
  | @driven w _ s leaves timeline leaves' k d d' ending course ends ih =>
    have hvigilant := course.vigilant leaves (Drive.vigilant_start leaves' ih.1 ih.2)
    have hmoved := hvigilant.moved_step leaves
    rw [ends] at hmoved
    exact ⟨hmoved.heeds, hmoved.rests nofun⟩

/-! ## No signal is lost

The law for courses of any length, of any drive that starts in such a world. The witness has all
three kinds of signals in one drive: one given before it, one by the transport while it is served,
and one by others while the worker sleeps. -/

/-- **A drive keeps watch** over the signals of work. -/
structure Drive.KeepsWatch (s : DriveSetting σ) (d : Drive (σ × Diary)) : Prop where
  /-- While the worker sleeps, no work is marked or the bell has woken it, also in the midst of what
  others do. -/
  woken : ∀ deadline, d.worker = .asleep deadline →
    ∀ cs : List Change, (∀ c ∈ cs, c.SparesBell) →
      (d.world.gateway.after cs).interrupt = false ∨
        (d.world.gateway.after cs).bell.sleeper = .woken
  /-- No signal is forgotten: work is marked, or the transport was served since. -/
  heeds : ∀ n ∈ d.world.outside.2, d.world.gateway.Heeds n
  /-- The transport is served for each signal within four moves and before the clock goes on, -/
  serves : ∀ {k : Nat} {d' : Drive (σ × Diary)}, d.Goes s k d' → 4 ≤ k ∨ d.now < d'.now →
    ∀ n ∈ d.world.outside.2, n < d'.world.gateway.services
  /-- or else before the drive ends, unless the worker has found the transport failed already and
  nothing but the end is left to do. -/
  ends : d.worker ≠ .closing → ∀ {k : Nat} {e d' : Drive (σ × Diary)} {ending : Ending},
    d.Goes s k e → e.step s.noted = (some ending, d') →
      ∀ n ∈ d.world.outside.2, n < d'.world.gateway.services

/-- To be vigilant is to keep watch. -/
theorem Drive.Vigilant.keepsWatch {s : DriveSetting σ} (hs : s.LeavesBell)
    {d : Drive (σ × Diary)} (hd : d.Vigilant []) : d.KeepsWatch s := by
  have hpast : d.Vigilant d.world.outside.2 :=
    { hd with heeds := fun n hn => hd.heeds n (List.mem_append_right _ (by simpa using hn)) }
  refine ⟨fun deadline hasleep cs hcs => ?_, hd.heeds, fun {k d'} hgoes hlate n hn => ?_,
    fun hopen {k e d' ending} hgoes hends n hn => ?_⟩
  · have hled : d.world.gateway.LeadsBy .sparesBell _ := Gateway.leadsBy_after hcs d.world.gateway
    exact (hled.guarded (hd.guarded deadline hasleep)).unmarked_or_woken
  · by_cases hclosing : d.worker = .closing
    · obtain ⟨-, hnow, hnone⟩ := hgoes.still_of_closing hs hpast hclosing
      omega
    · rcases hgoes.served_or_closer hs hpast hclosing hn with hserved | ⟨-, hnow, hcloser⟩
      · exact hserved
      · have hbound := movesToWork_le d.agenda
        omega
  · have hvigilant := hgoes.vigilant hs hpast
    have hmoved := hvigilant.moved_step hs
    have hled := Drive.leadsBy_step s.noted Conduct.free_drives e
    rw [hends] at hmoved hled
    rcases hgoes.served_or_closer hs hpast hopen hn with hserved | ⟨hstill, -⟩
    · exact Nat.lt_of_lt_of_le hserved hled.services_le
    · rcases hmoved.serves hstill n (hvigilant.heeds n (List.mem_append_left _ hn)) with
        hserved | ⟨hnone, -⟩
      · exact hserved
      · cases hnone

/-- **No signal of work is lost.** Take any drive among adapters, applications and others that leave
it to the worker to wait for the bell, in any world that the like have led to. Have all signals of
work taken down, whoever gives them. Then

* but for what is taken down, the drive is what it was, and its moves are a course of it;
* all along any course, also one where others come in between, it keeps watch. While the worker
  sleeps, no work is marked or the bell has woken it; and each signal, be it given before the drive,
  from a callback or by others, is followed by a service of the transport within four moves and
  without the clock going on, unless the drive has ended before. A drive that ends has had the
  transport served for all signals that came before the turn in which it was found failed. -/
theorem no_signal_lost {s : DriveSetting σ} (hs : s.LeavesBell) {timeline : List (TimelineEntry σ)}
    (htimeline : ∀ e ∈ timeline, e.script.CallsOnly Op.LeavesBell) {w : World (σ × Diary)}
    (hw : w.Reached) :
    let d := Drive.start (timeline.map TimelineEntry.noted) w
    (∀ moves, ∃ diary, Drive.run s.noted moves d =
      Prod.map id (·.noted diary) (Drive.run s moves (Drive.start timeline w.unnoted))) ∧
    (∀ moves e, Drive.run s.noted moves d = (.exhausted, e) → d.Goes s moves e) ∧
    ∀ k e, d.Goes s k e → e.KeepsWatch s := by
  obtain ⟨hheeds, hawake⟩ := hw.heeds_and_awake
  refine ⟨fun moves => ?_, fun moves e hrun => ?_, fun k e hgoes => ?_⟩
  · exact Drive.exists_run_noted s moves (Drive.start timeline w.unnoted) w.outside.2
  · have hgoes := Drive.Goes.start.run hrun
    rwa [Nat.zero_add] at hgoes
  · exact (hgoes.vigilant hs (Drive.vigilant_start htimeline hheeds hawake)).keepsWatch hs

/-- A transport that calls for another service while it is served for the first time. -/
def restlessTransport : Environment Bool where
  adapter
    | .service => .look fun _ rung =>
      if rung then .done (.ok ()) else .store true (.call .signalWork fun _ => .done (.ok ()))
    | r => .done r.idle
  application _ := .done ()

/-- Ten milliseconds among restless peers. -/
def restless : DriveSetting Bool where
  environment _ := restlessTransport
  depth := 1
  stop := 10

/-- Signals work. -/
def signalOnce : Script Bool Unit := .call .signalWork .done

/-- While the worker sleeps till the tenth millisecond, the third signal comes in the third, and is
served there. The one before the drive and the one from the transport have been served before. -/
theorem no_signal_lost_restless :
    let w := (signalOnce.noted.run (restlessTransport.noted.perform 1) ⟨Run.bare.state, false, []⟩).2
    let d := Drive.start ([⟨3, signalOnce⟩].map TimelineEntry.noted) w
    restless.LeavesBell ∧ w.Reached ∧
      ∃ e e' : Drive (Bool × Diary), d.Goes restless 6 e ∧ e.KeepsWatch restless ∧
        e.worker = .asleep 10 ∧ e.world.gateway.interrupt = true ∧
        e.world.outside.2 = [2, 1, 0] ∧ e.world.gateway.services = 2 ∧
        e.Goes restless 4 e' ∧ e'.now = 3 ∧ e'.world.gateway.services = 3 := by
  intro w d
  have hpeers : restlessTransport.CallsOnly Op.LeavesBell := by
    refine ⟨fun r => ?_, fun _ => trivial⟩
    cases r with
    | service =>
      intro _ rung
      cases rung with
      | true => trivial
      | false => exact ⟨nofun, fun _ => trivial⟩
    | _ => trivial
  have hsignal : signalOnce.CallsOnly Op.LeavesBell := ⟨nofun, fun _ => trivial⟩
  have hreached : w.Reached := .called (.made Run.bare.made false) hpeers 1 hsignal
  have hpeers : restless.LeavesBell := fun _ => hpeers
  have htimeline : ∀ entry ∈ [(⟨3, signalOnce⟩ : TimelineEntry Bool)],
      entry.script.CallsOnly Op.LeavesBell := List.forall_mem_singleton.2 hsignal
  obtain ⟨-, hcourse, hwatch⟩ := no_signal_lost hpeers htimeline hreached
  have hsix : Drive.run restless.noted 6 d = (.exhausted, (Drive.run restless.noted 6 d).2) :=
    Prod.ext (by decide +kernel) rfl
  have hfour : Drive.run restless.noted 4 (Drive.run restless.noted 6 d).2 =
      (.exhausted, (Drive.run restless.noted 4 (Drive.run restless.noted 6 d).2).2) :=
    Prod.ext (by decide +kernel) rfl
  refine ⟨hpeers, hreached, _, _, hcourse 6 _ hsix, hwatch 6 _ (hcourse 6 _ hsix), ?_, ?_, ?_, ?_,
    Drive.Goes.start.run hfour, ?_, ?_⟩
  all_goals decide +kernel

end Fieldbus
