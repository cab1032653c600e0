import Fieldbus.Drive
import Fieldbus.Proofs.Conduct
/-!
Driving: what a drive does with each move, alone and among others.

One move of a drive is one of eleven things (`Drive.Move`, `Drive.move_step`), and every law of
drives goes through these cases. The first is that what holds of operations holds of a drive: it
performs operations, has the worker lie down and get up, and remarks on its beginning and its end,
so it keeps every conduct that all these keep (`Drive.leadsBy_step`).

A drive shares its gateway with others, who may come in between any two of its moves
(`Drive.LeadsAmong`). That matters at its end. The worker finds the transport failed in one move
and looks for the last fault in the next, and what it finds there is what others have left by then
(`Drive.LeadsAmong.of_stopped`). The induction behind it carries two facts along a course: while the
worker is about to end the drive it is the next to move, and the gateway is then the one that it has
found failed, but for what others did.

A conduct is what connects this to the laws of operations. Others are restricted by a conduct only,
so `Drive.LeadsAmong` is a relation with a parameter, and a law says how much others have to keep
to: nothing at all for how a drive is stopped, and some conduct or other for what holds of the
gateway then.
-/

namespace Fieldbus

/-! ## One move

`Drive.move_step` takes a move apart by what is due: the end of the drive, a tick, the worker, a
script, a round that begins, or time that passes. Each case names the change of the gateway that it
is and the state of the worker after it, so nobody has to unfold the drive again. -/

/-- A conduct that may be kept by a drive: operations keep it, and so does what a drive does
besides. -/
structure Conduct.Drives (k : Conduct) : Prop where
  makes : ∀ op cs, Op.Makes op cs → k.Allows cs
  lieDown : k.Allows [.lieDown]
  getUp : k.Allows [.getUp]
  driven : ∀ tick poll, k.Allows [.remark (.driven tick poll)]
  driveEnded : ∀ f, k.Allows [.remark (.driveEnded f)]

theorem Conduct.free_drives : Conduct.free.Drives where
  makes _ cs _ := free_allows cs
  lieDown := free_allows _
  getUp := free_allows _
  driven _ _ := free_allows _
  driveEnded _ := free_allows _

namespace Drive
variable {σ : Type} {k : Conduct} (s : DriveSetting σ)

theorem leadsBy_perform (hk : k.Drives) (op : Op) (d : Drive σ) :
    d.world.gateway.LeadsBy k (d.perform s op).2.world.gateway :=
  Environment.leadsBy_perform (fun op _ => hk.makes op) (s.environment d.now).callsOnly_true s.depth
    op trivial d.world

theorem leadsBy_tick (hk : k.Drives) (d : Drive σ) :
    d.world.gateway.LeadsBy k (d.tick s).world.gateway :=
  leadsBy_perform s hk .tick { d with nextTick := d.now + d.world.gateway.settings.tick.millis }

/-- After a turn the worker is about to lie down, or to end the drive. -/
theorem turn_eq (d : Drive σ) :
    d.turn s =
      { d with
        world := (d.perform s .work).2.world
        worker := if (d.perform s .work).1 then .ready else .closing } := by
  have hperform : ({ d with worker := .ready } : Drive σ).perform s .work =
      ((d.perform s .work).1, { d with world := (d.perform s .work).2.world, worker := .ready }) :=
    rfl
  unfold turn
  rw [hperform]
  cases (d.perform s .work).1 <;> rfl

/-- A turn tells whether it leaves the transport working. -/
theorem fst_perform_work (d : Drive σ) :
    (d.perform s .work).1 = (d.perform s .work).2.world.gateway.isOperable :=
  (s.environment d.now).answer_work s.depth d.world

/-- **What one move of a drive can be.** -/
inductive Move (d : Drive σ) : Option Ending × Drive σ → Prop where
  /-- The gateway ticks, -/
  | ticks {rest : List Duty} (agenda : d.agenda = .tick :: rest) :
    Move d (none, ({ d with agenda := rest } : Drive σ).tick s)
  /-- unless it is not time to. -/
  | spares {rest : List Duty} (agenda : d.agenda = .tick :: rest) :
    Move d (none, { d with agenda := rest })
  /-- The worker uses up a ring and takes a turn, -/
  | hears {rest : List Duty} (agenda : d.agenda = .work :: rest) (ready : d.worker = .ready)
    (rung : d.world.gateway.bell.pending = true) :
    Move d (none, ({ d with world := d.world.change (·.lieDown.2) } : Drive σ).turn s)
  /-- or lies down where none is pending. -/
  | lies {rest : List Duty} {deadline : Nat} (agenda : d.agenda = .work :: rest)
    (ready : d.worker = .ready) (silent : d.world.gateway.bell.pending = false) :
    Move d (none,
      { d with world := d.world.change (·.lieDown.2), worker := .asleep deadline })
  /-- It gets up and takes a turn, -/
  | rises {rest : List Duty} {deadline : Nat} (agenda : d.agenda = .work :: rest)
    (asleep : d.worker = .asleep deadline) :
    Move d (none, ({ d with world := d.world.change (·.getUp) } : Drive σ).turn s)
  /-- or sleeps on where the bell has not woken it. -/
  | sleeps {rest : List Duty} {deadline : Nat} (agenda : d.agenda = .work :: rest)
    (asleep : d.worker = .asleep deadline) (quiet : d.isWoken = false) :
    Move d (none, { d with agenda := rest })
  /-- It ends the drive once it has found the transport failed. -/
  | closes {rest : List Duty} (agenda : d.agenda = .work :: rest) (closing : d.worker = .closing) :
    Move d d.close
  /-- Another round begins at once, -/
  | begins (agenda : d.agenda = []) : Move d (none, d.beginRound)
  /-- or when it is due, -/
  | waits {time : Nat} (agenda : d.agenda = []) (quiet : d.isWoken = false) :
    Move d (none, ({ d with now := max d.now time } : Drive σ).beginRound)
  /-- if there is no script to run before, -/
  | runs {time : Nat} {entry : TimelineEntry σ} {rest : List (TimelineEntry σ)}
    (agenda : d.agenda = []) (quiet : d.isWoken = false) (timeline : d.timeline = entry :: rest) :
    Move d (none,
      { d with
        now := max d.now time
        timeline := rest
        world := (entry.script.run
          ((s.environment (max d.now time)).perform s.depth) d.world).2 })
  /-- and time is not up. -/
  | ends {time : Nat} (agenda : d.agenda = []) (quiet : d.isWoken = false) :
    Move d (some .timeUp,
      { d with world := d.world.change (·.getUp), now := max d.now time })

/-- The scripts that are due next are those of the timeline. -/
theorem exists_entry_of_next {d : Drive σ} {stop time : Nat} {script : Script σ Unit}
    {rest : List (TimelineEntry σ)} (h : d.next stop = (time, .entry script rest)) :
    ∃ entry : TimelineEntry σ, d.timeline = entry :: rest ∧ entry.script = script := by
  have hchoice : ∀ a b : Nat × Due σ, earlier a b = a ∨ earlier a b = b := by
    intro a b
    unfold earlier
    split
    · exact Or.inl rfl
    · exact Or.inr rfl
  unfold next at h
  cases htimeline : d.timeline with
  | nil =>
    rw [htimeline] at h
    rcases hchoice _ _ with hround | hstop
    · rw [hround] at h
      cases h
    · rw [hstop] at h
      cases h
  | cons entry later =>
    rw [htimeline] at h
    dsimp only at h
    rcases hchoice (min d.nextTick d.worker.due, .round)
      (earlier (entry.time, .entry entry.script later) (stop, .stop)) with hround | hother
    · rw [hround] at h
      cases h
    · rw [hother] at h
      rcases hchoice (entry.time, .entry entry.script later) (stop, .stop) with hentry | hstop
      · rw [hentry] at h
        cases h
        exact ⟨entry, rfl, rfl⟩
      · rw [hstop] at h
        cases h

theorem move_step (d : Drive σ) : d.Move s (d.step s) := by
  unfold step
  split
  · -- a tick, if it is time to
    next rest hagenda =>
    dsimp only
    split
    · exact .ticks hagenda
    · exact .spares hagenda
  · -- the worker, by the stage it is in
    next rest hagenda =>
    unfold work
    split
    · next hready =>
      cases hpending : d.world.gateway.bell.pending with
      | true =>
        have hanswer : d.world.answer (·.lieDown) = (true, d.world.change (·.lieDown.2)) := by
          unfold World.answer World.change Gateway.lieDown Bell.sleep
          simp only [hpending, if_true]
        rw [hanswer]
        exact .hears hagenda hready hpending
      | false =>
        have hanswer : d.world.answer (·.lieDown) = (false, d.world.change (·.lieDown.2)) := by
          unfold World.answer World.change Gateway.lieDown Bell.sleep
          simp [hpending]
        rw [hanswer]
        exact .lies hagenda hready hpending
    · next deadline hasleep =>
      split
      · exact .rises hagenda hasleep
      · next hnot =>
        simp only [Bool.or_eq_true, decide_eq_true_eq, not_or, Bool.not_eq_true] at hnot
        exact .sleeps hagenda hasleep hnot.1
    · next hclosing => exact .closes hagenda hclosing
  · -- nothing is left of this round
    next hagenda =>
    split
    · exact .begins hagenda
    · next hnot =>
      simp only [Bool.or_eq_true, not_or, Bool.not_eq_true] at hnot
      split
      · exact .waits hagenda hnot.2
      · next time script rest hnext =>
        obtain ⟨entry, htimeline, rfl⟩ := exists_entry_of_next hnext
        exact .runs hagenda hnot.2 htimeline
      · exact .ends hagenda hnot.2

/-- To go on for as many moves as it is allowed is no way for a drive to end. -/
theorem step_fst_ne (d : Drive σ) : (d.step s).1 ≠ some .exhausted := by
  have hmove := d.move_step s
  generalize d.step s = result at hmove ⊢
  cases hmove with
  | closes => unfold close; nofun
  | _ => nofun

theorem leadsBy_turn (hk : k.Drives) (d : Drive σ) :
    d.world.gateway.LeadsBy k (d.turn s).world.gateway := by
  rw [d.turn_eq s]
  exact leadsBy_perform s hk .work d

/-- **One move of a drive keeps a conduct.** -/
theorem leadsBy_step (hk : k.Drives) (d : Drive σ) :
    d.world.gateway.LeadsBy k (d.step s).2.world.gateway := by
  have hmove := d.move_step s
  generalize d.step s = result at hmove ⊢
  cases hmove with
  | ticks => exact leadsBy_tick s hk { d with agenda := _ }
  | hears =>
    exact (Gateway.leadsBy_apply hk.lieDown _).trans
      (leadsBy_turn s hk { d with world := d.world.change (·.lieDown.2) })
  | lies => exact Gateway.leadsBy_apply hk.lieDown _
  | rises =>
    exact (Gateway.leadsBy_apply hk.getUp _).trans
      (leadsBy_turn s hk { d with world := d.world.change (·.getUp) })
  | closes => exact Gateway.leadsBy_apply (hk.driveEnded _) _
  | @runs time entry rest =>
    have hperform : ∀ op : Op, True → ∀ w : World σ, w.gateway.LeadsBy k
        ((s.environment (max d.now time)).perform s.depth op w).2.gateway := by
      intro op _ w
      exact Environment.leadsBy_perform (fun op _ => hk.makes op)
        (s.environment (max d.now time)).callsOnly_true s.depth op trivial w
    exact Script.leadsBy_run hperform entry.script.callsOnly_true d.world
  | ends => exact Gateway.leadsBy_apply hk.getUp _
  | spares | sleeps | begins | waits => exact Gateway.LeadsBy.refl k _

theorem leadsBy_start (hk : k.Drives) (timeline : List (TimelineEntry σ)) (w : World σ) :
    w.gateway.LeadsBy k (Drive.start timeline w).world.gateway :=
  Gateway.leadsBy_apply (hk.driven w.gateway.settings.tick w.gateway.settings.pollInterval) w.gateway

/-! ## Among others

Nothing is asked of the others but how they change the gateway, and nothing of the clock but that it
does not go back. So a course stands for every order in which threads that share a gateway can come
in between the moves of a drive. In the midst of a move only those come in that adapter or
application call. -/

/-- **What a drive can lead to among others** whose changes of the gateway `k` allows. They may come
in between any two moves, and the clock may go on meanwhile. -/
inductive LeadsAmong (s : DriveSetting σ) (k : Conduct) (d : Drive σ) : Drive σ → Prop
  | start : LeadsAmong s k d d
  | moves {e e' : Drive σ} (before : LeadsAmong s k d e) (move : e.step s = (none, e')) :
    LeadsAmong s k d e'
  | others {e : Drive σ} (before : LeadsAmong s k d e) {w : World σ}
    (led : e.world.gateway.LeadsBy k w.gateway) : LeadsAmong s k d { e with world := w }
  | waits {e : Drive σ} (before : LeadsAmong s k d e) {time : Nat} (later : e.now ≤ time) :
    LeadsAmong s k d { e with now := time }

variable {s} {d d' e : Drive σ} {l : Conduct}

/-- A drive keeps every conduct among others who keep it too. -/
theorem LeadsAmong.leadsBy (h : d.LeadsAmong s k e) (hl : l.Drives)
    (hkl : ∀ cs, k.Allows cs → l.Allows cs) : d.world.gateway.LeadsBy l e.world.gateway := by
  induction h with
  | start => exact Gateway.LeadsBy.refl l _
  | @moves e e' _ move ih =>
    have hstep := leadsBy_step s hl e
    rw [move] at hstep
    exact ih.trans hstep
  | others _ led ih => exact ih.trans (led.mono hkl)
  | waits _ _ ih => exact ih

/-- Moves that others leave alone are a course too. -/
theorem exists_leadsAmong_of_run {moves : Nat} {ending : Ending} (k : Conduct)
    (h : Drive.run s moves d = (ending, d')) (hends : ending ≠ .exhausted) :
    ∃ e, d.LeadsAmong s k e ∧ e.step s = (some ending, d') := by
  have hgoesOn : ∀ (moves : Nat) (e : Drive σ), d.LeadsAmong s k e →
      Drive.run s moves e = (ending, d') → ∃ e, d.LeadsAmong s k e ∧ e.step s = (some ending, d') := by
    intro moves
    induction moves with
    | zero =>
      intro e _ hrun
      cases hrun
      exact absurd rfl hends
    | succ moves ih =>
      intro e hcourse hrun
      unfold run at hrun
      cases hstep : e.step s with
      | mk answer next =>
        rw [hstep] at hrun
        cases answer with
        | none => exact ih next (hcourse.moves hstep) hrun
        | some _ =>
          cases hrun
          exact ⟨e, hcourse, hstep⟩
  exact hgoesOn moves d .start h

/-! ## How a drive is stopped

The invariant of a course has two states. While the worker is not about to end the drive there is
nothing to say; from the turn on in which it finds the transport failed, the world at that time (`v`
in `Drive.FoundFailed`) is kept, and all that came since was by others. A move in between is
impossible, since the worker is the next to move. -/

/-- Only a worker that is about to stops a drive. -/
theorem closing_of_stopped {err : Error} (h : d.step s = (some (.stopped err), d')) :
    d.worker = .closing ∧ d.close = (some (.stopped err), d') := by
  have hmove := d.move_step s
  rw [h] at hmove
  generalize hresult : (some (Ending.stopped err), d') = result at hmove
  cases hmove with
  | closes _ closing => exact ⟨closing, rfl⟩
  | _ => cases hresult

/-- By the time `v` the worker has found the transport failed, and since then only others have changed
the gateway. -/
structure FoundFailed (s : DriveSetting σ) (k : Conduct) (d v e : Drive σ) : Prop where
  before : d.LeadsAmong s k v
  closing : v.worker = .closing
  failed : v.world.gateway.isOperable = false
  others : v.world.gateway.LeadsBy k e.world.gateway

/-- A turn after which the worker is about to end the drive has found the transport failed. -/
theorem isOperable_of_closing (h : (d.turn s).worker = .closing) :
    (d.turn s).world.gateway.isOperable = false := by
  rw [d.turn_eq s] at h ⊢
  show (d.perform s .work).2.world.gateway.isOperable = false
  rw [← d.fst_perform_work s]
  cases hanswer : (d.perform s .work).1 with
  | false => rfl
  | true =>
    rw [hanswer] at h
    cases h

/-- **While the worker is about to end a drive,** it is the next to move, and nobody but others has
changed the gateway since it found the transport failed. -/
theorem LeadsAmong.foundFailed (h : d.LeadsAmong s k e) (hd : d.worker ≠ .closing)
    (hclosing : e.worker = .closing) :
    (∃ rest, e.agenda = .work :: rest) ∧ ∃ v, d.FoundFailed s k v e := by
  induction h with
  | start => exact absurd hclosing hd
  | @moves e e' before move ih =>
    have hcourse := before.moves move
    have hmove := e.move_step s
    rw [move] at hmove
    generalize hresult : (none, e') = result at hmove
    -- nothing but a turn makes the worker come to this, and after it no other move is open
    have hturned : ∀ {w : World σ} {rest : List Duty}, e.agenda = .work :: rest →
        e' = ({ e with world := w } : Drive σ).turn s →
        (∃ rest, e'.agenda = .work :: rest) ∧ ∃ v, d.FoundFailed s k v e' := by
      intro w rest hagenda he'
      have hfailed : e'.world.gateway.isOperable = false := by
        rw [he'] at hclosing ⊢
        exact isOperable_of_closing hclosing
      have hsame : e'.agenda = e.agenda := by rw [he', turn_eq]
      exact ⟨⟨rest, hsame.trans hagenda⟩, e', hcourse, hclosing, hfailed, Gateway.LeadsBy.refl k _⟩
    cases hmove with
    | hears agenda | rises agenda =>
      exact hturned agenda (Prod.mk.inj hresult).2
    | ticks agenda | spares agenda | begins agenda | waits agenda | runs agenda =>
      cases hresult
      obtain ⟨⟨rest, hfirst⟩, -⟩ := ih hclosing
      cases agenda.symm.trans hfirst
    | lies =>
      cases hresult
      cases hclosing
    | sleeps _ asleep =>
      cases hresult
      cases asleep.symm.trans hclosing
    | closes | ends => cases hresult
  | others _ led ih =>
    obtain ⟨hfirst, v, hfound⟩ := ih hclosing
    exact ⟨hfirst, v, { hfound with others := hfound.others.trans led }⟩
  | waits _ _ ih =>
    obtain ⟨hfirst, v, hfound⟩ := ih hclosing
    exact ⟨hfirst, v, { hfound with others := hfound.others }⟩

/-- **How a drive is stopped:** a turn of the worker has found the transport failed, others came in
between, and the drive ends with the last fault as they leave it. -/
theorem LeadsAmong.of_stopped (h : d.LeadsAmong s k e) (hd : d.worker ≠ .closing) {err : Error}
    (hstops : e.step s = (some (.stopped err), d')) :
    (∃ v, d.FoundFailed s k v e) ∧
      let f := e.world.gateway.lastFault.getD .transport
      err = .communication f ∧ d'.world = e.world.change (·.note (.driveEnded f)) := by
  obtain ⟨hclosing, hclose⟩ := closing_of_stopped hstops
  refine ⟨(h.foundFailed hd hclosing).2, ?_⟩
  unfold close at hclose
  cases hclose
  exact ⟨rfl, rfl⟩

end Drive
end Fieldbus
