import Fieldbus.Proofs.Driving
import Fieldbus.Proofs.Rousing
/-!
Vigilance: what each move of a drive does about signals of work.

A drive may have all scripts in it take down their signals (`Drive.noted`), which changes nothing
else about its moves (`Drive.exists_run_noted`). Such a drive is vigilant (`Drive.Vigilant`) if no
signal was lost and mark and ring agree: if the worker is up, a mark goes with a pending ring, and the
round has still to see to the worker; if it sleeps, a mark goes with its having been woken. So while
the worker sleeps on, no work is marked and every signal has been served.

Each move of a vigilant drive leaves it vigilant (`Drive.Vigilant.moved_step`). A signal that was
given before is served with it, or the clock stands still and the worker is seen to sooner by one move
(`movesToWork`).

The eleven kinds of moves are gone through once, in `Drive.Vigilant.moved_step`. Most of them do not
touch the bell and are settled by what others keep too. Those that matter are the ones in which the
worker changes between lying and being up:

1. it lies down where no ring is pending; then no work is marked either, so it guards the bell;
2. it finds a ring pending, uses it up and takes its turn at once;
3. it is woken or has slept long enough, gets up and takes its turn;
4. it finds the transport failed, and ends the drive with its next move; it is up until then, and
   whatever was signalled after its turn is not served.

The fourth is why not all signals are served. A drive that has found the transport failed ends, and
those who signal work after that signal it to nobody.
-/

namespace Fieldbus

variable {σ : Type}

/-! ## Drives that take down signals

A drive goes by its own state and by what scripts do to the gateway. To take down the signals of all
scripts in it, in its surroundings and on its timeline, changes the latter only by the diary. -/

/-- The same entry, taking down its signals. -/
def TimelineEntry.noted (e : TimelineEntry σ) : TimelineEntry (σ × Diary) :=
  ⟨e.time, e.script.noted⟩

namespace DriveSetting

/-- The same surroundings, taking down their signals. -/
def noted (s : DriveSetting σ) : DriveSetting (σ × Diary) where
  environment time := (s.environment time).noted
  depth := s.depth
  stop := s.stop

/-- At no time adapter or application look for a ring. -/
def LeavesBell (s : DriveSetting σ) : Prop :=
  ∀ time, (s.environment time).CallsOnly Op.LeavesBell

end DriveSetting

/-! ### It changes nothing

Every field of a drive but its world is the same with and without a diary, so a drive decides alike
what is next in both. The operations that it performs are settled by the law for environments; the
rest is to put this together for one move and then for a whole drive. -/

/-- The world with what was taken down in it. -/
def World.noted (w : World σ) (diary : Diary) : World (σ × Diary) := w.map (·, diary)

/-- The same thing, if it is a script with its signals taken down. -/
def Due.noted : Due σ → Due (σ × Diary)
  | .round => .round
  | .entry script rest => .entry script.noted (rest.map TimelineEntry.noted)
  | .stop => .stop

namespace Drive

/-- The same drive, with the signals taken down that were given until now. -/
def noted (d : Drive σ) (diary : Diary) : Drive (σ × Diary) :=
  { d with world := d.world.noted diary, timeline := d.timeline.map TimelineEntry.noted }

section
variable (d : Drive σ) (diary : Diary)

@[simp] theorem noted_now : (d.noted diary).now = d.now := rfl
@[simp] theorem noted_nextTick : (d.noted diary).nextTick = d.nextTick := rfl
@[simp] theorem noted_worker : (d.noted diary).worker = d.worker := rfl
@[simp] theorem noted_agenda : (d.noted diary).agenda = d.agenda := rfl
@[simp] theorem noted_again : (d.noted diary).again = d.again := rfl
@[simp] theorem isWoken_noted : (d.noted diary).isWoken = d.isWoken := rfl

end

variable (s : DriveSetting σ)

theorem exists_perform_noted (d : Drive σ) (diary : Diary) (op : Op) :
    ∃ diary', (d.noted diary).perform s.noted op =
      Prod.map id (·.noted diary') (d.perform s op) := by
  have hforget : Prod.map id World.unnoted _ = (s.environment d.now).perform s.depth op d.world :=
    (s.environment d.now).map_noted s.depth op (d.world.noted diary)
  unfold perform
  rw [← hforget]
  exact ⟨_, rfl⟩

theorem exists_tick_noted (d : Drive σ) (diary : Diary) :
    ∃ diary', (d.noted diary).tick s.noted = (d.tick s).noted diary' := by
  obtain ⟨diary', hperform⟩ := exists_perform_noted s
    { d with nextTick := d.now + d.world.gateway.settings.tick.millis } diary .tick
  exact ⟨diary', congrArg (fun result : _ × Drive (σ × Diary) =>
    { result.2 with again := !d.isWoken && result.2.isWoken }) hperform⟩

theorem exists_turn_noted (d : Drive σ) (diary : Diary) :
    ∃ diary', (d.noted diary).turn s.noted = (d.turn s).noted diary' := by
  obtain ⟨diary', hperform⟩ := exists_perform_noted s d diary .work
  refine ⟨diary', ?_⟩
  rw [turn_eq, turn_eq, hperform]
  rfl

theorem next_noted (d : Drive σ) (diary : Diary) (stop : Nat) :
    (d.noted diary).next stop = Prod.map id Due.noted (d.next stop) := by
  have hearlier : ∀ a b : Nat × Due σ, earlier (Prod.map id Due.noted a) (Prod.map id Due.noted b) =
      Prod.map id Due.noted (earlier a b) := by
    intro a b
    exact (apply_ite (Prod.map id Due.noted) (a.1 ≤ b.1) a b).symm
  have htimeline : (d.noted diary).timeline = d.timeline.map TimelineEntry.noted := rfl
  unfold next
  rw [htimeline, ← hearlier]
  cases d.timeline with
  | nil => rfl
  | cons entry rest =>
    dsimp only
    rw [← hearlier]
    rfl

theorem exists_work_noted (d : Drive σ) (diary : Diary) (rest : List Duty) :
    ∃ diary', (d.noted diary).work s.noted rest = Prod.map id (·.noted diary') (d.work s rest) := by
  unfold work
  rw [noted_worker, isWoken_noted, noted_now]
  split
  · have hanswer : (d.noted diary).world.answer (·.lieDown) =
        Prod.map id (World.noted · diary) (d.world.answer (·.lieDown)) := rfl
    rw [hanswer]
    generalize d.world.answer (·.lieDown) = result
    obtain ⟨_ | _, world⟩ := result
    · exact ⟨diary, rfl⟩
    · obtain ⟨diary', hturn⟩ := exists_turn_noted s { d with world } diary
      exact ⟨diary', congrArg (Prod.mk none) hturn⟩
  · split
    · obtain ⟨diary', hturn⟩ :=
        exists_turn_noted s { d with world := d.world.change (·.getUp) } diary
      exact ⟨diary', congrArg (Prod.mk none) hturn⟩
    · exact ⟨diary, rfl⟩
  · exact ⟨diary, rfl⟩

/-- To take down signals changes no other thing about a move, -/
theorem exists_step_noted (d : Drive σ) (diary : Diary) :
    ∃ diary', (d.noted diary).step s.noted = Prod.map id (·.noted diary') (d.step s) := by
  unfold step
  rw [noted_agenda, noted_again, isWoken_noted]
  split
  · next rest _ =>
    dsimp only
    rw [noted_nextTick, noted_now]
    split
    · obtain ⟨diary', htick⟩ := exists_tick_noted s { d with agenda := rest } diary
      exact ⟨diary', congrArg (Prod.mk none) htick⟩
    · exact ⟨diary, rfl⟩
  · next rest _ => exact exists_work_noted s d diary rest
  · split
    · exact ⟨diary, rfl⟩
    · have hstop : s.noted.stop = s.stop := rfl
      rw [hstop, next_noted]
      generalize d.next s.stop = due
      obtain ⟨time, _ | ⟨script, timeline⟩ | _⟩ := due
      · exact ⟨diary, rfl⟩
      · have hforget : Prod.map id World.unnoted _ =
            script.run ((s.environment (max d.now time)).perform s.depth) d.world :=
          Script.map_noted ((s.environment (max d.now time)).map_noted s.depth) script
            (d.world.noted diary)
        dsimp only
        rw [← hforget]
        exact ⟨_, rfl⟩
      · exact ⟨diary, rfl⟩

/-- nor about a drive. -/
theorem exists_run_noted (moves : Nat) (d : Drive σ) (diary : Diary) :
    ∃ diary', Drive.run s.noted moves (d.noted diary) =
      Prod.map id (·.noted diary') (Drive.run s moves d) := by
  induction moves generalizing d diary with
  | zero => exact ⟨diary, rfl⟩
  | succ moves ih =>
    obtain ⟨diary', hstep⟩ := exists_step_noted s d diary
    unfold run
    rw [hstep]
    generalize d.step s = result
    obtain ⟨_ | ending, d'⟩ := result
    · exact ih d' diary'
    · exact ⟨diary', rfl⟩

end Drive

/-! ## A turn of the worker

What one turn gives, whatever the drive looked like before: the worker is up afterwards, no signal
was lost, and those given before are served. The state of the bell before is used for one thing,
that a mark set during the turn goes with a ring that is pending. -/

namespace Drive
variable {s : DriveSetting σ} {past : Diary} {d d' : Drive (σ × Diary)}

/-- The worker has had its turn: it is up, and no signal was lost. Those that were given before the
turn are served. -/
structure Turned (past : Diary) (d d' : Drive (σ × Diary)) : Prop where
  heeds : d'.world.Heeds past
  awake : d'.world.gateway.bell.Awake d'.world.gateway.interrupt
  serves : ∀ n, d.world.gateway.Heeds n → n < d'.world.gateway.services

theorem turned_turn (hs : s.LeavesBell) (hheeds : d.world.Heeds past)
    (hup : d.world.gateway.bell.sleeper = .absent) : Turned past d (d.turn s.noted) := by
  rw [d.turn_eq s.noted]
  exact
    { heeds := (s.environment d.now).heeds_perform s.depth .work hheeds
      awake := Environment.awake_work (hs d.now).noted s.depth hup
      serves := fun n hn => (s.environment d.now).noted.lt_services_work s.depth hn }

/-! ## How soon the worker is seen to

A round sees to what is due in some order, with the worker somewhere among it. `movesToWork` counts
how many moves come before it is the worker's. A tick or a script is one of these, and a round that
begins anew has the worker in it; so as long as there is a signal to be served, every move makes the
number smaller. -/

/-- How many moves there are at most before the worker is seen to, by what the present round has
still to see to. -/
def movesToWork : List Duty → Nat
  | .work :: _ => 0
  | .tick :: .work :: _ => 1
  | [] => 2
  | .tick :: _ => 3

theorem movesToWork_le (agenda : List Duty) : movesToWork agenda ≤ 3 := by
  unfold movesToWork
  split <;> omega

/-- With each tick the worker comes closer, -/
theorem movesToWork_lt_of_tick {rest : List Duty} (h : (Duty.tick :: rest).Nodup) :
    movesToWork rest < movesToWork (.tick :: rest) := by
  match rest with
  | [] => decide
  | .work :: _ => exact Nat.zero_lt_one
  | .tick :: _ => exact absurd List.mem_cons_self (List.nodup_cons.1 h).1

theorem agenda_beginRound (d : Drive σ) :
    d.beginRound.agenda = [.tick, .work] ∨ d.beginRound.agenda = [.work, .tick] := by
  unfold beginRound
  cases d.tickFirst
  · exact Or.inr rfl
  · exact Or.inl rfl

/-- and with each round that begins. -/
theorem movesToWork_beginRound (d : Drive σ) :
    movesToWork d.beginRound.agenda < movesToWork [] := by
  rcases d.agenda_beginRound with h | h <;> rw [h] <;> decide

theorem nodup_beginRound (d : Drive σ) : d.beginRound.agenda.Nodup := by
  rcases d.agenda_beginRound with h | h <;> rw [h] <;> decide

theorem work_mem_beginRound (d : Drive σ) : .work ∈ d.beginRound.agenda := by
  rcases d.agenda_beginRound with h | h <;> rw [h] <;> decide

/-! ## What each move keeps

First what leaves a drive vigilant without any doing of the worker, then the moves of the worker,
then all moves. `Drive.Moved` is what comes of a move: not only that the drive is vigilant, if it
goes on, but what became of a signal that was given before. -/

/-- **A drive is vigilant.** -/
structure Vigilant (past : Diary) (d : Drive (σ × Diary)) : Prop where
  /-- No signal was lost. -/
  heeds : d.world.Heeds past
  /-- If the worker is up, a mark goes with a ring, and the round has still to see to it. -/
  awake : (∀ deadline, d.worker ≠ .asleep deadline) →
    d.world.gateway.bell.Awake d.world.gateway.interrupt ∧ .work ∈ d.agenda
  /-- If it sleeps, a mark goes with its being woken. -/
  guarded : ∀ deadline, d.worker = .asleep deadline →
    d.world.gateway.bell.Guarded d.world.gateway.interrupt
  /-- If it is about to end the drive, it does so next. -/
  closing : d.worker = .closing → ∃ rest, d.agenda = .work :: rest
  agenda : d.agenda.Nodup
  timeline : ∀ e ∈ d.timeline, ∃ entry : TimelineEntry σ,
    entry.script.CallsOnly Op.LeavesBell ∧ e = entry.noted

/-- **What comes of a move:** the drive goes on to be vigilant, or the worker is up at its end. A
signal that was given before is served with it, unless the clock stands still and the worker comes
closer. The move that ends a drive which has found the transport failed serves none. -/
structure Moved (past : Diary) (d : Drive (σ × Diary))
    (result : Option Ending × Drive (σ × Diary)) : Prop where
  goesOn : result.1 = none → result.2.Vigilant past
  heeds : result.2.world.Heeds past
  rests : result.1 ≠ none →
    result.2.world.gateway.bell.Awake result.2.world.gateway.interrupt
  serves : d.worker ≠ .closing → ∀ n, d.world.gateway.Heeds n →
    n < result.2.world.gateway.services ∨
      result.1 = none ∧ result.2.worker = d.worker ∧ result.2.now = d.now ∧
        movesToWork result.2.agenda < movesToWork d.agenda

/-- So it is where the drive goes on. -/
theorem Moved.goingOn (h : d'.Vigilant past)
    (hserves : ∀ n, d.world.gateway.Heeds n → n < d'.world.gateway.services ∨
      d'.worker = d.worker ∧ d'.now = d.now ∧ movesToWork d'.agenda < movesToWork d.agenda) :
    Moved past d (none, d') :=
  ⟨fun _ => h, h.heeds, nofun,
    fun _ n hn => (hserves n hn).imp_right fun hcloser => ⟨rfl, hcloser⟩⟩

namespace Vigilant

/-- Whatever others do, a drive stays vigilant, if they leave the bell alone and lose no signal. -/
theorem of_leadsBy (h : d.Vigilant past) {w : World (σ × Diary)}
    (hled : d.world.gateway.LeadsBy .sparesBell w.gateway) (hheeds : w.Heeds past) :
    ({ d with world := w } : Drive _).Vigilant past where
  heeds := hheeds
  awake hup := ⟨hled.awake (h.awake hup).1, (h.awake hup).2⟩
  guarded deadline hasleep := hled.guarded (h.guarded deadline hasleep)
  closing := h.closing
  agenda := h.agenda
  timeline := h.timeline

/-- It does so as the clock goes on, -/
theorem atTime (h : d.Vigilant past) (time : Nat) :
    ({ d with now := time } : Drive _).Vigilant past :=
  ⟨h.heeds, h.awake, h.guarded, h.closing, h.agenda, h.timeline⟩

/-- as a duty is taken off, unless it is the worker and the worker is up, -/
theorem seenTo (h : d.Vigilant past) {duty : Duty} {rest : List Duty}
    (hagenda : d.agenda = duty :: rest)
    (hduty : (∀ deadline, d.worker ≠ .asleep deadline) → duty = .tick) :
    ({ d with agenda := rest } : Drive _).Vigilant past where
  heeds := h.heeds
  awake hup := by
    obtain ⟨hawake, hwork⟩ := h.awake hup
    rw [hagenda, hduty hup] at hwork
    exact ⟨hawake, (List.mem_cons.1 hwork).resolve_left nofun⟩
  guarded := h.guarded
  closing hclosing := by
    have htick : duty = .tick := hduty fun deadline hasleep => by
      cases hclosing.symm.trans hasleep
    obtain ⟨later, hwork⟩ := h.closing hclosing
    rw [htick] at hagenda
    cases hagenda.symm.trans hwork
  agenda := by
    have hnodup := h.agenda
    rw [hagenda] at hnodup
    exact (List.nodup_cons.1 hnodup).2
  timeline := h.timeline

/-- Between rounds the worker sleeps. -/
theorem exists_asleep (h : d.Vigilant past) (hagenda : d.agenda = []) :
    ∃ deadline, d.worker = .asleep deadline := by
  by_contra hup
  have hmem := (h.awake (not_exists.1 hup)).2
  rw [hagenda] at hmem
  cases hmem

/-- A round that begins leaves a drive vigilant too. -/
theorem beginRound (h : d.Vigilant past) (hagenda : d.agenda = []) :
    d.beginRound.Vigilant past where
  heeds := h.heeds
  awake hup := ⟨(h.awake hup).1, d.work_mem_beginRound⟩
  guarded := h.guarded
  closing hclosing := by
    obtain ⟨rest, hwork⟩ := h.closing hclosing
    cases hagenda.symm.trans hwork
  agenda := d.nodup_beginRound
  timeline := h.timeline

theorem tick (h : d.Vigilant past) (hs : s.LeavesBell) : (d.tick s.noted).Vigilant past := by
  have hleaves : Op.tick.LeavesBell := nofun
  have hticked := h.of_leadsBy
    (Environment.sparesBell_perform (hs d.now).noted s.depth hleaves d.world)
    ((s.environment d.now).heeds_perform s.depth .tick h.heeds)
  exact ⟨hticked.heeds, hticked.awake, hticked.guarded, hticked.closing, hticked.agenda,
    hticked.timeline⟩

/-- Others that run a script may come in at any time. -/
theorem script (h : d.Vigilant past) (hs : s.LeavesBell) {script : Script σ Unit}
    (hscript : script.CallsOnly Op.LeavesBell) :
    ({ d with
      world := (script.noted.run ((s.noted.environment d.now).perform s.depth) d.world).2 } :
        Drive _).Vigilant past :=
  h.of_leadsBy (Environment.sparesBell_run (hs d.now).noted s.depth hscript.noted d.world)
    ((s.environment d.now).heeds_run s.depth script h.heeds)

/-- While the worker sleeps and is not woken, no work is marked, -/
theorem unmarked_of_quiet (h : d.Vigilant past) {deadline : Nat}
    (hasleep : d.worker = .asleep deadline) (hquiet : d.isWoken = false) :
    d.world.gateway.interrupt = false := by
  refine (h.guarded deadline hasleep).unmarked_or_woken.resolve_right fun hwoken => ?_
  exact of_decide_eq_false hquiet hwoken

/-- so every signal has been served. -/
theorem served_of_quiet (h : d.Vigilant past) {deadline n : Nat}
    (hasleep : d.worker = .asleep deadline) (hquiet : d.isWoken = false)
    (hn : d.world.gateway.Heeds n) : n < d.world.gateway.services :=
  hn.2.resolve_left (by rw [h.unmarked_of_quiet hasleep hquiet]; nofun)

/-- The worker gets up, or stays up, and takes its turn. -/
theorem moved_turn (h : d.Vigilant past) (hs : s.LeavesBell) {c : Change} (hc : c ≠ .takeInterrupt)
    (hup : (d.world.gateway.apply c).bell.sleeper = .absent) {rest : List Duty}
    (hagenda : d.agenda = .work :: rest) :
    Moved past d (none, ({ d with world := d.world.after [c] } : Drive _).turn s.noted) := by
  have hquiet : ∀ c' ∈ [c], c' ≠ .takeInterrupt := List.forall_mem_singleton.2 hc
  have hturned := @turned_turn _ s past { d with world := d.world.after [c] } hs
    (h.heeds.after hquiet) hup
  refine .goingOn ?_ fun n hn => Or.inl (hturned.serves n (hn.after hquiet))
  rw [turn_eq] at hturned ⊢
  refine ⟨hturned.heeds, fun _ => ⟨hturned.awake, ?_⟩, fun deadline hasleep => ?_,
    fun _ => ⟨rest, hagenda⟩, h.agenda, h.timeline⟩
  · show Duty.work ∈ d.agenda
    rw [hagenda]
    exact List.mem_cons_self
  · dsimp only at hasleep
    split at hasleep <;> cases hasleep

/-- **Every move of a vigilant drive is vigilant.** -/
theorem moved_step (h : d.Vigilant past) (hs : s.LeavesBell) : Moved past d (d.step s.noted) := by
  have hmove := d.move_step s.noted
  generalize d.step s.noted = result at hmove ⊢
  -- a duty apart from the worker's brings the worker closer
  have hcloser : ∀ {rest : List Duty}, d.agenda = .tick :: rest →
      movesToWork rest < movesToWork d.agenda := by
    intro rest hagenda
    have hnodup := h.agenda
    rw [hagenda] at hnodup ⊢
    exact movesToWork_lt_of_tick hnodup
  have hready : d.worker = .ready → ∀ deadline, d.worker ≠ .asleep deadline := by
    intro hready deadline hasleep
    cases hready.symm.trans hasleep
  -- signals are served by turns; where the worker sleeps on or lies down, none waits
  cases hmove with
  | ticks agenda =>
    exact .goingOn ((h.seenTo agenda fun _ => rfl).tick hs)
      fun _ _ => Or.inr ⟨rfl, rfl, hcloser agenda⟩
  | spares agenda =>
    exact .goingOn (h.seenTo agenda fun _ => rfl) fun _ _ => Or.inr ⟨rfl, rfl, hcloser agenda⟩
  | hears agenda ready rung =>
    have hup := (h.awake (hready ready)).1.up
    exact h.moved_turn hs (c := .lieDown) nofun
      ((Bell.sleeper_sleep_of_pending rung).trans hup) agenda
  | lies agenda ready silent =>
    have hawake := (h.awake (hready ready)).1
    have hheeds : (d.world.after [.lieDown]).Heeds past :=
      h.heeds.after (List.forall_mem_singleton.2 nofun)
    refine .goingOn ⟨hheeds, fun hup => absurd rfl (hup _), fun _ _ => hawake.sleep silent, nofun,
      h.agenda, h.timeline⟩ fun n hn => Or.inl (hn.2.resolve_left fun hmarked => ?_)
    cases silent.symm.trans (hawake.rung hmarked)
  | rises agenda => exact h.moved_turn hs (c := .getUp) nofun rfl agenda
  | sleeps agenda asleep quiet =>
    exact .goingOn (h.seenTo agenda fun hup => absurd asleep (hup _))
      fun n hn => Or.inl (h.served_of_quiet asleep quiet hn)
  | closes agenda closing =>
    have hawake := (h.awake fun deadline hasleep => by cases closing.symm.trans hasleep).1
    have hheeds : ∀ f, (d.world.after [.remark (.driveEnded f)]).Heeds past :=
      fun f => h.heeds.after (List.forall_mem_singleton.2 nofun)
    exact ⟨nofun, hheeds _, fun _ => hawake, fun hopen => absurd closing hopen⟩
  | begins agenda =>
    refine .goingOn (h.beginRound agenda) fun _ _ => Or.inr ⟨rfl, rfl, ?_⟩
    rw [agenda]
    exact d.movesToWork_beginRound
  | waits agenda quiet =>
    obtain ⟨deadline, hasleep⟩ := h.exists_asleep agenda
    exact .goingOn ((h.atTime _).beginRound agenda)
      fun n hn => Or.inl (h.served_of_quiet hasleep quiet hn)
  | @runs time entry rest agenda quiet timeline =>
    obtain ⟨deadline, hasleep⟩ := h.exists_asleep agenda
    obtain ⟨plain, hplain, rfl⟩ := h.timeline entry (by rw [timeline]; exact List.mem_cons_self)
    have hrun := (h.atTime (max d.now time)).script hs hplain
    have hled := Environment.sparesBell_run (hs (max d.now time)).noted s.depth hplain.noted d.world
    refine .goingOn ⟨hrun.heeds, hrun.awake, hrun.guarded, hrun.closing, hrun.agenda,
      fun e he => ?_⟩ fun n hn => Or.inl ?_
    · exact h.timeline e (by rw [timeline]; exact List.mem_cons_of_mem _ he)
    · exact Nat.lt_of_lt_of_le (h.served_of_quiet hasleep quiet hn) hled.services_le
  | ends agenda quiet =>
    obtain ⟨deadline, hasleep⟩ := h.exists_asleep agenda
    have hheeds : (d.world.after [.getUp]).Heeds past :=
      h.heeds.after (List.forall_mem_singleton.2 nofun)
    have hunmarked : (d.world.after [.getUp]).gateway.interrupt = false :=
      h.unmarked_of_quiet hasleep quiet
    refine ⟨nofun, hheeds, fun _ => ⟨rfl, fun hmarked => ?_⟩,
      fun _ n hn => Or.inl (h.served_of_quiet hasleep quiet hn)⟩
    cases hunmarked.symm.trans hmarked

end Vigilant
end Drive
end Fieldbus
