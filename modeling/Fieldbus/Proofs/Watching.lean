import Mathlib.Logic.Relation
import Fieldbus.Proofs.Coherence
import Fieldbus.Proofs.Silence
/-!
Watching a gateway from outside.

Whoever stands between a gateway and its surroundings can take down what passes: each call of an
operation, each request to the adapter and each answer. Taking it down changes nothing of what
happens (`Environment.map_watch`, `Script.map_watched`). What was seen says what the gateway had
cause to do; what the gateway did is in its journal and its state.

The two are held against each other over the course of a run. Between two turns of somebody else a
gateway goes one of a few `Stretch`es: it changes in an ordinary way, it reports a fault for which
there is cause, it takes another device, or it changes the alarms of a slot and tells the adapter.
Every operation is a sequence of these, whatever adapter and application do
(`Environment.course_watch`), so what each stretch keeps is kept in every run that is watched.

The journal of the gateway would not do for this. It is kept by the gateway itself, so a law that
holds it against the state compares the gateway with what it says; and it knows nothing of what the
adapter was told. What is seen here is taken down by the surroundings.

A stretch is larger than a change where a change and a request belong together. A fault is taken
down, and before anybody else has a turn the adapter is asked to hear of it; so the two are one
stretch, and a law that is true of both but not of the change alone can be stated at all. What
adapter and application do in answer comes after the stretch, as stretches of its own.
-/

namespace Fieldbus

/-! ## What can be seen

An `Occasion` is the call of an operation with the state that it finds, a request, or an answer. The
state is taken down with the call because it decides whether there is cause for a report: a tick is
one if the watchdog expires with it, a disconnection if there was contact. `Op.cause?` says so
before the operation runs, and that the gateway then finds the same is shown for each such operation
here. -/

/-- What can be seen of a gateway from outside. -/
inductive Occasion where
  /-- An operation was called. Holds the gateway as it was then. -/
  | called (op : Op) (g : Gateway)
  /-- The adapter was asked something. -/
  | asked (r : Request)
  /-- The adapter answered. -/
  | answered (r : Request) (reply : r.Reply)

/-- A change of an alarm, as the adapter is told it. -/
structure AlarmReport where
  slot : UInt16
  alarm : Alarm
  active : Bool
deriving DecidableEq, Repr

/-- The fault that the call of an operation gives cause to report, in the state it finds. -/
def Op.cause? (g : Gateway) : Op → Option Fault
  | .report f => some f
  | .tick =>
    if g.status.has Status.watchdog && (g.watchdog.check (g.ticks + 1)).1 then
      some .coreCommunication
    else none
  | .disconnect =>
    if g.status.has Status.connected || g.status.has Status.running then some .transport else none
  | .reconfigure d =>
    match d.validate with
    | .error _ => some .configuration
    | .ok () => none
  | _ => none

/-- Whether an operation puts another device in the place of the one before. -/
def Op.renews : Op → Bool
  | .reconfigure d =>
    match d.validate with
    | .error _ => false
    | .ok () => true
  | _ => false

/-- A device that is valid is taken, -/
theorem Op.renews_of_valid {d : Device} (h : d.validate = .ok ()) (g : Gateway) :
    (Op.reconfigure d).cause? g = none ∧ (Op.reconfigure d).renews = true := by
  unfold cause? renews
  dsimp only
  rw [h]
  exact ⟨rfl, rfl⟩

/-- and one that is not gives cause for a report. -/
theorem Op.cause?_of_invalid {d : Device} {e : Error} (h : d.validate = .error e) (g : Gateway) :
    (Op.reconfigure d).cause? g = some .configuration ∧ (Op.reconfigure d).renews = false := by
  unfold cause? renews
  dsimp only
  rw [h]
  exact ⟨rfl, rfl⟩

/-- A tick gives cause for a report if the watchdog expires with it. -/
theorem Op.cause?_tick (g : Gateway) :
    Op.tick.cause? g = if g.advance.1 then some .coreCommunication else none := by
  show (if g.status.has Status.watchdog && (g.watchdog.check (g.ticks + 1)).1 then _ else _) = _
  cases hon : g.status.has Status.watchdog with
  | false =>
    rw [g.advance_of_off hon]
    rfl
  | true =>
    rw [(g.advance_of_on hon).1]
    rfl

/-- Clearing flags changes nothing exactly if none of them is set. -/
theorem Status.withoutFlags_eq_iff {s : Status} {flags : UInt32} :
    s.withoutFlags flags = s ↔ s.has flags = false := by
  have hzero : s.has flags = false ↔ s.bits &&& flags = 0 := bne_eq_false_iff_eq
  rw [hzero]
  constructor
  · intro hsame
    have hbits : s.bits &&& ~~~flags = s.bits := congrArg bits hsame
    rw [← hbits, UInt32.and_assoc, UInt32.not_and_self, UInt32.and_zero]
  · intro hnone
    have hsplit : s.bits &&& (flags ||| ~~~flags) = s.bits &&& flags ||| s.bits &&& ~~~flags :=
      UInt32.toBitVec_inj.1 BitVec.and_or_distrib_left
    have hbits : s.bits &&& ~~~flags = s.bits := by
      rw [hnone, UInt32.zero_or, UInt32.or_not_self, UInt32.and_neg_one] at hsplit
      exact hsplit.symm
    unfold withoutFlags
    rw [hbits]

/-- The contact is lost if there was any, or a controller exchanged data. -/
theorem Gateway.loseContact_fst (g : Gateway) :
    g.loseContact.1 = (g.status.has Status.connected || g.status.has Status.running) := by
  have hboth : g.status.has Status.connectionDependent =
      (g.status.has Status.connected || g.status.has Status.running) := by
    have hsplit : g.status.bits &&& Status.connectionDependent =
        g.status.bits &&& Status.connected ||| g.status.bits &&& Status.running :=
      UInt32.toBitVec_inj.1 BitVec.and_or_distrib_left
    rw [Bool.eq_iff_iff, Bool.or_eq_true, Status.has_eq_true_iff, Status.has_eq_true_iff,
      Status.has_eq_true_iff, hsplit, Ne, UInt32.or_eq_zero_iff]
    exact Decidable.not_and_iff_not_or_not
  have hlost : g.loseContact.1 =
      if g.status.withoutFlags Status.connectionDependent = g.status then false else true := by
    unfold loseContact Link.clear Link.update
    show Prod.fst (if g.status.withoutFlags Status.connectionDependent = g.status then _ else _) = _
    split <;> rfl
  rw [← hboth, hlost]
  split
  · next hsame => rw [Status.withoutFlags_eq_iff.1 hsame]
  · next hchanged =>
    rw [Status.withoutFlags_eq_iff, Bool.not_eq_false] at hchanged
    exact hchanged.symm

namespace Occasion

/-- The fault that there is cause to report. -/
def cause? : Occasion → Option Fault
  | .called op g => op.cause? g
  | .answered .service (.error f) => some f
  | _ => none

/-- The fault that the adapter is told. -/
def told? : Occasion → Option Fault
  | .asked (.fault f) => some f
  | _ => none

/-- The change of an alarm that the adapter is told. -/
def alarm? : Occasion → Option AlarmReport
  | .asked (.alarm slot a active) => some ⟨slot, a, active⟩
  | _ => none

/-- Whether the device is replaced. -/
def renews : Occasion → Bool
  | .called op _ => op.renews
  | _ => false

/-- Nothing that matters here. -/
structure IsOrdinary (o : Occasion) : Prop where
  cause : o.cause? = none
  told : o.told? = none
  alarm : o.alarm? = none
  renews : o.renews = false

/-- Unless it says that the transport failed, an answer matters to nobody here. -/
theorem isOrdinary_answered {r : Request} (hr : r ≠ .service) (reply : r.Reply) :
    (answered r reply).IsOrdinary := by
  cases r with
  | service => exact absurd rfl hr
  | _ => exact ⟨rfl, rfl, rfl, rfl⟩

/-- Nor does a call that neither gives cause for a report nor replaces the device. -/
theorem isOrdinary_called {op : Op} {g : Gateway} (hcause : op.cause? g = none)
    (hrenews : op.renews = false) : (called op g).IsOrdinary := ⟨hcause, rfl, rfl, hrenews⟩

end Occasion

/-! ## Taking it down

A script is watched by putting the list of what was seen beside the surroundings and adding to it
with every call and every answer. Scripts are data, so the watched script is made from the script
(`Script.watched`), and likewise the handler and the environment. -/

/-- The gateway, and what was seen of it, latest first. -/
structure Scene where
  gateway : Gateway
  seen : List Occasion

/-- What is read off all that was seen, oldest first. -/
def gathered {β : Type} (read : Occasion → Option β) (seen : List Occasion) : List β :=
  seen.reverse.filterMap read

theorem gathered_cons {β : Type} (read : Occasion → Option β) (o : Occasion)
    (seen : List Occasion) :
    gathered read (o :: seen) = gathered read seen ++ (read o).toList := by
  have hone : [o].filterMap read = (read o).toList := by
    cases h : read o with
    | none => exact List.filterMap_cons_none h
    | some b => exact List.filterMap_cons_some h
  unfold gathered
  rw [List.reverse_cons, List.filterMap_append, hone]

/-- An occasion off which nothing is read adds nothing. -/
theorem gathered_cons_none {β : Type} {read : Occasion → Option β} {o : Occasion}
    (h : read o = none) (seen : List Occasion) :
    gathered read (o :: seen) = gathered read seen := by
  rw [gathered_cons, h]
  exact List.append_nil _

section Watching
variable {σ α : Type}

namespace World

/-- Another view of the surroundings. -/
def map {τ : Type} (f : σ → τ) (w : World σ) : World τ := ⟨w.gateway, f w.outside⟩

/-- Takes down an occasion. -/
def see (w : World (σ × List Occasion)) (o : Occasion) : World (σ × List Occasion) :=
  { w with outside := (w.outside.1, o :: w.outside.2) }

/-- What there is of a watched world without its surroundings. -/
def scene (w : World (σ × List Occasion)) : Scene := ⟨w.gateway, w.outside.2⟩

end World

/-- The script that does the same and keeps what was seen. -/
def Script.watched : Script σ α → Script (σ × List Occasion) α
  | .done a => .done a
  | .look next => .look fun g outside => (next g outside.1).watched
  | .store outside next => .look fun _ before => .store (outside, before.2) next.watched
  | .call op next => .call op fun r => (next r).watched

/-- The handler that does the same while requests and answers are taken down. -/
def Handler.watched (h : Handler (σ × List Occasion)) : Handler (σ × List Occasion) where
  ask r w :=
    let (reply, w) := h.ask r (w.see (.asked r))
    (reply, w.see (.answered r reply))
  tell := h.tell

namespace Environment

/-- The same scripts, with what was seen around them. -/
def watched (env : Environment σ) : Environment (σ × List Occasion) where
  adapter r := (env.adapter r).watched
  application i := (env.application i).watched

/-- Performs an operation among the scripts of an environment while everything is taken down. -/
def watch (env : Environment σ) :
    (depth : Nat) → (op : Op) → World (σ × List Occasion) → op.Result × World (σ × List Occasion)
  | 0, op, w => op.run Handler.nobody.watched (w.see (.called op w.gateway))
  | depth + 1, op, w =>
    op.run (env.watched.handler (env.watch depth)).watched (w.see (.called op w.gateway))

end Environment

/-! ## It changes nothing

To forget what was seen is a map from watched worlds to worlds (`World.unseen`), and every operation
commutes with it. There is nothing special about this map: whatever reduces the surroundings to what
a handler goes by (`Handler.Lifts`) can be pulled through an operation, since an operation reaches
the surroundings through its handler only (`Op.map_run`). The rest is induction on the script and on
how deep calls are nested. -/

/-! ### Operations by their handlers

A view of the surroundings is a map from all there is to what a handler goes by. That a handler
lifts another says what its requests and its indications do to the view; from there each operation
is followed through its parts. -/

/-- A handler that does to one view of the surroundings what another does to the whole. -/
structure Handler.Lifts {τ : Type} (f : τ → σ) (k : Handler τ) (h : Handler σ) : Prop where
  ask : ∀ r w, Prod.map id (World.map f) (k.ask r w) = h.ask r (w.map f)
  tell : ∀ i w, (k.tell i w).map f = h.tell i (w.map f)

section Lifting
variable {τ : Type} {f : τ → σ} {k : Handler τ} {h : Handler σ}

namespace World

theorem map_ask (hk : k.Lifts f h) (r : Request) (w : World τ) :
    Prod.map id (World.map f) (w.ask k r) = (w.map f).ask h r :=
  hk.ask r (w.change (·.note (.asked r)))

theorem map_report (hk : k.Lifts f h) (e : Fault) (w : World τ) :
    (w.report k e).map f = (w.map f).report h e :=
  congrArg Prod.snd (map_ask hk (.fault e) (w.change (·.fault e)))

theorem map_serve (hk : k.Lifts f h) (w : World τ) : (w.serve k).map f = (w.map f).serve h := by
  have hask := map_ask hk .service w
  unfold serve
  rw [← hask]
  generalize w.ask k .service = result
  obtain ⟨e | _, w'⟩ := result
  · exact map_report hk e (w'.change (·.failTransport e))
  · rfl

theorem map_tick (hk : k.Lifts f h) (w : World τ) : (w.tick k).map f = (w.map f).tick h := by
  rw [tick_eq, tick_eq]
  show World.map f _ = if w.gateway.advance.1 then _ else _
  split
  · exact map_report hk _ _
  · rfl

theorem map_disconnect (hk : k.Lifts f h) (w : World τ) :
    (w.disconnect k).map f = (w.map f).disconnect h := by
  rw [disconnect_eq, disconnect_eq]
  show World.map f _ = if w.gateway.loseContact.1 then _ else _
  split
  · exact map_report hk _ _
  · rfl

theorem map_dispatch (hk : k.Lifts f h) (count : Nat) :
    ∀ (served : Bool) (w : World τ), (dispatch k count served w).map f =
      dispatch h count served (w.map f) := by
  have htell : ∀ i (w : World τ), (w.tell k i).map f = (w.map f).tell h i := by
    intro i w
    exact hk.tell i _
  induction count with
  | zero => exact fun _ _ => rfl
  | succ count ih =>
    intro served w
    have hreceive : Prod.map id (World.map f) (w.answer (·.receive)) =
        (w.map f).answer (·.receive) := rfl
    unfold dispatch
    rw [← hreceive]
    generalize w.answer (·.receive) = result
    obtain ⟨_ | m, w'⟩ := result
    · rfl
    · -- only a poll has the transport served
      cases m with
      | poll =>
        have hserve : (if served then w' else w'.serve k).map f =
            if served then w'.map f else (w'.map f).serve h := by
          split
          · rfl
          · exact map_serve hk w'
        show (dispatch k count true (World.tell _ k .poll)).map f =
          dispatch h count true (World.tell _ h .poll)
        rw [ih, htell, hserve]
      | _ => exact (ih _ _).trans (congrArg _ (htell _ w'))

theorem map_work (hk : k.Lifts f h) (w : World τ) :
    Prod.map id (World.map f) (w.work k) = (w.map f).work h := by
  have htake : Prod.map id (World.map f) (w.answer (·.takeInterrupt)) =
      (w.map f).answer (·.takeInterrupt) := rfl
  unfold work
  rw [← htake]
  generalize w.answer (·.takeInterrupt) = result
  obtain ⟨marked, w'⟩ := result
  have hserve : (if marked then w'.serve k else w').map f =
      if marked then (w'.map f).serve h else w'.map f := by
    split
    · exact map_serve hk w'
    · rfl
  dsimp only [Prod.map, id_eq]
  rw [← hserve, ← map_dispatch hk]
  rfl

theorem map_reconfigure (hk : k.Lifts f h) (d : Device) (w : World τ) :
    Prod.map id (World.map f) (w.reconfigure k d) = (w.map f).reconfigure h d := by
  unfold reconfigure
  cases Configuration.ofDevice d with
  | error e =>
    have hreport := map_report hk .configuration (w.change (·.note (.rejected d e)))
    exact congrArg (Except.error e, ·) hreport
  | ok c => rfl

theorem map_attempt (change : Gateway → Except Error Gateway) (w : World τ) :
    Prod.map id (World.map f) (w.attempt change) = (w.map f).attempt change := by
  have hgateway : (w.map f).gateway = w.gateway := rfl
  unfold attempt
  rw [hgateway]
  cases change w.gateway <;> rfl

theorem map_changeAlarm (hk : k.Lifts f h) (slot : UInt16) (a : Alarm) (active : Bool)
    (w : World τ) :
    Prod.map id (World.map f) (w.changeAlarm k slot a active) =
      (w.map f).changeAlarm h slot a active := by
  unfold changeAlarm
  rw [← map_attempt]
  generalize w.attempt _ = result
  obtain ⟨_ | _, w'⟩ := result
  · rfl
  · exact congrArg (fun x => (Except.ok (), x.2)) (map_ask hk (.alarm slot a active) w')

theorem map_writeInputs (hk : k.Lifts f h) (w : World τ) :
    Prod.map id (World.map f) (w.writeInputs k) = (w.map f).writeInputs h := by
  have hgateway : (w.map f).gateway = w.gateway := rfl
  unfold writeInputs
  rw [hgateway]
  generalize w.gateway.packInputs (w.gateway.blankFrame .tx) = result
  obtain ⟨_ | _, frame⟩ := result
  · rfl
  · exact congrArg (fun x => (Except.ok (), x.2)) (map_ask hk (.txFrame frame) w)

theorem map_readOutputs (hk : k.Lifts f h) (w : World τ) :
    Prod.map id (World.map f) (w.readOutputs k) = (w.map f).readOutputs h := by
  have hask := map_ask hk (.rxFrame (w.gateway.config.layout.frame .rx).size) w
  unfold readOutputs
  show _ = match (w.map f).ask h (.rxFrame (w.gateway.config.layout.frame .rx).size) with
    | (frame, w) => w.attempt (·.unpackOutputs frame.toArray)
  rw [← hask, map_attempt]
  rfl

end World

/-- **What an operation does depends on the surroundings only through its handler.** -/
theorem Op.map_run (hk : k.Lifts f h) (op : Op) (w : World τ) :
    Prod.map id (World.map f) (op.run k w) = op.run h (w.map f) := by
  have hunheard : k.unheard.Lifts f h.unheard := ⟨hk.ask, fun _ _ => rfl⟩
  cases op with
  | reconfigure d => exact World.map_reconfigure hk d w
  | tick => exact congrArg ((), ·) (World.map_tick hk w)
  | disconnect => exact congrArg ((), ·) (World.map_disconnect hk w)
  | report e => exact congrArg ((), ·) (World.map_report hk e w)
  | addAlarm slot a => exact World.map_changeAlarm hk slot a true w
  | removeAlarm slot a => exact World.map_changeAlarm hk slot a false w
  | work => exact World.map_work hk w
  | workUnheard => exact World.map_work hunheard w
  | writeInputs => exact World.map_writeInputs hk w
  | readOutputs => exact World.map_readOutputs hk w
  | writeParam slot param bits data =>
    exact World.map_attempt (·.writeParam slot param bits data) w
  | setSignal slot signal values => exact World.map_attempt (·.setSignal slot signal values) w
  | setValue slot signal element value =>
    exact World.map_attempt (·.setValue slot signal element value) w
  | setSlotStatus slot status => exact World.map_attempt (·.setSlotStatus slot status) w
  | unpackOutputs frame => exact World.map_attempt (·.unpackOutputs frame) w
  | avail | sync | activity | signalWork | lookForRing | countCrc | setTransport _ | setFlags _
  | clearFlags _ | enableWatchdog _ | selectCycle _ | receive | takeWrite => rfl

end Lifting

/-! ### Scripts and environments

The view that forgets what was seen is one of them. The induction is on the script, and for
environments on the depth. -/

/-- The view of the surroundings in which nothing was seen. -/
def World.unseen (w : World (σ × List Occasion)) : World σ := w.map Prod.fst

/-- A watched script does what the script does. -/
theorem Script.map_watched {perform : (op : Op) → World σ → op.Result × World σ}
    {watch : (op : Op) → World (σ × List Occasion) → op.Result × World (σ × List Occasion)}
    (h : ∀ op w, Prod.map id World.unseen (watch op w) = perform op w.unseen) (s : Script σ α)
    (w : World (σ × List Occasion)) :
    Prod.map id World.unseen (s.watched.run watch w) = s.run perform w.unseen := by
  induction s generalizing w with
  | done a => rfl
  | look next ih => exact ih _ _ w
  | store outside next ih => exact ih { w with outside := (outside, w.outside.2) }
  | call op next ih =>
    have hcall := h op w
    show Prod.map id World.unseen ((next (watch op w).1).watched.run watch (watch op w).2) =
      (next (perform op w.unseen).1).run perform (perform op w.unseen).2
    rw [← hcall]
    exact ih _ _

/-- **To watch an operation changes nothing of it.** -/
theorem Environment.map_watch (env : Environment σ) (depth : Nat) (op : Op)
    (w : World (σ × List Occasion)) :
    Prod.map id World.unseen (env.watch depth op w) = env.perform depth op w.unseen := by
  induction depth generalizing op w with
  | zero => exact Op.map_run ⟨fun _ _ => rfl, fun _ _ => rfl⟩ op _
  | succ depth ih =>
    refine Op.map_run ⟨fun r w => ?_, fun i w => ?_⟩ op (w.see (.called op w.gateway))
    · exact Script.map_watched ih (env.adapter r) (w.see (.asked r))
    · exact congrArg Prod.snd (Script.map_watched ih (env.application i) w)

end Watching

/-! ## The course of a run

A `Course` is a sequence of stretches, as the reflexive and transitive closure, so one induction
serves for all laws (`Course.keeps`). It leads from one scene to another, where a `Scene` is a
gateway together with what was seen of it; the surroundings themselves are left out, since no law
here depends on what they are. -/

/-- A change by which no fault is taken down, and no device or alarm changes. -/
def Change.isOrdinary : Change → Bool
  | .fault _ | .install _ | .addAlarm _ _ | .removeAlarm _ _ => false
  | _ => true

/-- The change of an alarm. -/
def Change.alarm (slot : UInt16) (a : Alarm) : (active : Bool) → Change
  | true => .addAlarm slot a
  | false => .removeAlarm slot a

/-- **Where a gateway goes between two turns of somebody else,** with what is seen of it. -/
inductive Stretch : Scene → Scene → Prop where
  /-- It changes in an ordinary way, -/
  | change (s : Scene) {c : Change} (h : c.isOrdinary = true) :
    Stretch s { s with gateway := s.gateway.apply c }
  /-- or something is seen that does not matter here. -/
  | see (s : Scene) {o : Occasion} (h : o.IsOrdinary) : Stretch s { s with seen := o :: s.seen }
  /-- A fault for which there is cause is taken down, and the adapter is told. -/
  | report (s : Scene) {o : Occasion} {f : Fault} (h : o.cause? = some f) :
    Stretch s ⟨s.gateway.apply (.fault f), .asked (.fault f) :: o :: s.seen⟩
  /-- It is called for a device that is valid, and takes it. -/
  | renew (s : Scene) {d : Device} (h : d.validate = .ok ()) (g : Gateway) :
    Stretch s ⟨s.gateway.apply (.install d), .called (.reconfigure d) g :: s.seen⟩
  /-- An alarm is changed where that is not refused, and the adapter is told. -/
  | alarm (s : Scene) {slot : UInt16} {a : Alarm} {active : Bool} {g : Gateway}
    (h : s.gateway.attempt (.alarm slot a active) = .ok g) :
    Stretch s ⟨g, .asked (.alarm slot a active) :: s.seen⟩

/-- Some stretches after another. -/
def Course : Scene → Scene → Prop := Relation.ReflTransGen Stretch

namespace Course
variable {s s' s'' : Scene}

theorem refl (s : Scene) : Course s s := Relation.ReflTransGen.refl

theorem trans (h : Course s s') (h' : Course s' s'') : Course s s'' :=
  Relation.ReflTransGen.trans h h'

theorem of_stretch (h : Stretch s s') : Course s s' := Relation.ReflTransGen.single h

/-- **What every stretch keeps, a course keeps.** -/
theorem keeps {P : Scene → Prop} (h : Course s s') (hs : P s)
    (hstretch : ∀ s s', Stretch s s' → P s → P s') : P s' := by
  induction h with
  | refl => exact hs
  | tail _ hlast ih => exact hstretch _ _ hlast ih

/-- A course is a sequence of changes. -/
theorem leads (h : Course s s') : s.gateway.Leads s'.gateway := by
  refine h.keeps (P := fun x => s.gateway.Leads x.gateway) ⟨[], rfl⟩ fun x x' hx hleads => ?_
  obtain ⟨cs, hcs⟩ := hleads
  have hone : ∀ c, s.gateway.Leads (x.gateway.apply c) := by
    intro c
    refine ⟨cs ++ [c], ?_⟩
    rw [Gateway.after_append, hcs]
    rfl
  cases hx with
  | change hc => exact hone _
  | see ho => exact ⟨cs, hcs⟩
  | report ho => exact hone (.fault _)
  | renew hd g => exact hone _
  | alarm hg =>
    rw [← Gateway.apply_of_ok hg]
    exact hone _

end Course

/-! ### Changes that may be refused

An alarm is changed first and reported then, if it was not refused. Raising and clearing go the same
way, so the two are one change here, with a flag for which. -/

section Refusal
variable {τ : Type} {w : World τ}

theorem Gateway.attempt_alarm (g : Gateway) (slot : UInt16) (a : Alarm) (active : Bool) :
    g.attempt (.alarm slot a active) =
      if active then g.addAlarm slot a else g.removeAlarm slot a := by
  cases active <;> rfl

variable {slot : UInt16} {a : Alarm} {active : Bool}

/-- The adapter is told of a change of an alarm, -/
theorem World.changeAlarm_of_accepted (h : Handler τ) {g : Gateway}
    (hg : w.gateway.attempt (.alarm slot a active) = .ok g) :
    w.changeAlarm h slot a active =
      (.ok (), (World.ask { w with gateway := g } h (.alarm slot a active)).2) := by
  rw [Gateway.attempt_alarm] at hg
  unfold changeAlarm
  rw [attempt_of_ok hg]

/-- and of none that is refused. -/
theorem World.changeAlarm_of_refused (h : Handler τ) {e : Error}
    (hg : w.gateway.attempt (.alarm slot a active) = .error e) :
    w.changeAlarm h slot a active = (.error e, w) := by
  rw [Gateway.attempt_alarm] at hg
  unfold changeAlarm
  rw [attempt_of_error hg]

end Refusal

/-! ### Operations go along a course

Each operation is taken apart into its changes and requests, in the order in which it makes them,
and each of these is a stretch. A handler is what answers the requests, so it has to go along a
course itself (`Handler.Courses`); that is the induction hypothesis for the calls nested in it, and
nobody at all is the base case. -/

section Courses
variable {σ α : Type}

/-- A handler by which a watched world goes along a course. -/
structure Handler.Courses (h : Handler (σ × List Occasion)) : Prop where
  ask : ∀ r w, Course w.scene (h.ask r w).2.scene
  tell : ∀ i w, Course w.scene (h.tell i w).scene

theorem Handler.courses_nobody : (nobody : Handler (σ × List Occasion)).Courses :=
  ⟨fun _ w => .refl w.scene, fun _ w => .refl w.scene⟩

theorem Handler.Courses.unheard {h : Handler (σ × List Occasion)} (hh : h.Courses) :
    h.unheard.Courses :=
  ⟨hh.ask, fun _ w => .refl w.scene⟩

namespace World
variable {h : Handler (σ × List Occasion)} (w : World (σ × List Occasion))

/-- An ordinary change is a course, -/
theorem course_change {c : Change} (hc : c.isOrdinary = true) :
    Course w.scene (w.change (·.apply c)).scene := .of_stretch (.change w.scene hc)

/-- and so is an ordinary occasion. -/
theorem course_see {o : Occasion} (ho : o.IsOrdinary) : Course w.scene (w.see o).scene :=
  .of_stretch (.see w.scene ho)

/-- A request, once it was seen. -/
theorem course_asked (hh : h.Courses) (r : Request) :
    Course (w.see (.asked r)).scene
      (h.ask r ((w.change (·.note (.asked r))).see (.asked r))).2.scene := by
  have hnote : Course (w.see (.asked r)).scene
      ((w.see (.asked r)).change (·.apply (.remark (.asked r)))).scene := course_change _ rfl
  exact hnote.trans (hh.ask r _)

/-- A request of which nothing depends on the answer. -/
theorem course_ask (hh : h.Courses) {r : Request} (hr : r ≠ .service) :
    Course (w.see (.asked r)).scene (w.ask h.watched r).2.scene :=
  (w.course_asked hh r).trans (course_see _ (Occasion.isOrdinary_answered hr _))

theorem course_tell (hh : h.Courses) (i : Indication) :
    Course w.scene (w.tell h.watched i).scene := by
  have hnote : Course w.scene (w.change (·.apply (.remark (.indicated i)))).scene :=
    w.course_change rfl
  exact hnote.trans (hh.tell i _)

/-- **A report for which there is cause is a course,** with its cause. -/
theorem course_report (hh : h.Courses) {o : Occasion} {f : Fault} (ho : o.cause? = some f) :
    Course w.scene ((w.see o).report h.watched f).scene := by
  have hreport : Course w.scene (((w.see o).change (·.fault f)).see (.asked (.fault f))).scene :=
    .of_stretch (.report w.scene ho)
  exact hreport.trans (course_ask _ hh nofun)

/-- A failure of the transport is a cause for a report. -/
theorem course_serve (hh : h.Courses) : Course w.scene (w.serve h.watched).scene := by
  have hseen : Course w.scene (w.see (.asked .service)).scene :=
    w.course_see ⟨rfl, rfl, rfl, rfl⟩
  have hasked := hseen.trans (w.course_asked hh .service)
  have hanswer : w.ask h.watched .service =
      (let (reply, w') :=
        h.ask .service ((w.change (·.note (.asked .service))).see (.asked .service))
      (reply, w'.see (.answered .service reply))) := rfl
  unfold serve
  rw [hanswer]
  generalize h.ask .service ((w.change (·.note (.asked .service))).see (.asked .service)) = result
    at hasked ⊢
  obtain ⟨f | _, w'⟩ := result
  · -- the answer is seen before the failure is taken down, and nobody has a turn in between
    have hfail : Course w'.scene (w'.change (·.failTransport f)).scene :=
      w'.course_change (c := .failTransport f) rfl
    exact hasked.trans (hfail.trans (course_report _ hh (o := .answered .service (.error f)) rfl))
  · exact hasked.trans (w'.course_see ⟨rfl, rfl, rfl, rfl⟩)

/-- Handing out messages is a course of receiving, serving and telling. -/
theorem course_dispatch (hh : h.Courses) (count : Nat) :
    ∀ (served : Bool) (w : World (σ × List Occasion)),
      Course w.scene (dispatch h.watched count served w).scene := by
  induction count with
  | zero => exact fun _ w => .refl w.scene
  | succ count ih =>
    intro served w
    have hreceive : Course w.scene (w.answer (·.receive)).2.scene :=
      w.course_change (c := .receive) rfl
    unfold dispatch
    generalize w.answer (·.receive) = result at hreceive ⊢
    obtain ⟨_ | m, w'⟩ := result
    · exact hreceive
    · have hserve : Course w'.scene (if served then w' else w'.serve h.watched).scene := by
        split
        · exact .refl _
        · exact w'.course_serve hh
      -- only a poll has the transport served
      cases m with
      | poll => exact hreceive.trans (hserve.trans ((course_tell _ hh .poll).trans (ih _ _)))
      | _ => exact hreceive.trans ((w'.course_tell hh _).trans (ih _ _))

theorem course_work (hh : h.Courses) : Course w.scene (w.work h.watched).2.scene := by
  have htake : Course w.scene (w.answer (·.takeInterrupt)).2.scene :=
    w.course_change (c := .takeInterrupt) rfl
  unfold work
  generalize w.answer (·.takeInterrupt) = result at htake ⊢
  obtain ⟨marked, w'⟩ := result
  have hserve : Course w'.scene (if marked then w'.serve h.watched else w').scene := by
    split
    · exact w'.course_serve hh
    · exact .refl _
  exact htake.trans (hserve.trans (course_dispatch hh _ _ _))

/-- A call of a tick is the cause of a report if the watchdog expires with it. -/
theorem course_tick (hh : h.Courses) :
    Course w.scene ((w.see (.called .tick w.gateway)).tick h.watched).scene := by
  have hadvance : Course w.scene (w.change (·.advance.2)).scene :=
    w.course_change (c := .advance) rfl
  rw [tick_eq]
  show Course w.scene (World.scene (if w.gateway.advance.1 then _ else _))
  split
  · next hexpires =>
    have hcause : (Occasion.called .tick w.gateway).cause? = some .coreCommunication :=
      (Op.cause?_tick _).trans (if_pos hexpires)
    exact hadvance.trans (course_report _ hh hcause)
  · next hquiet =>
    have hcause : (Occasion.called .tick w.gateway).cause? = none :=
      (Op.cause?_tick _).trans (if_neg hquiet)
    exact hadvance.trans (course_see _ (Occasion.isOrdinary_called hcause rfl))

/-- A call of a disconnection is one if there was contact. -/
theorem course_disconnect (hh : h.Courses) :
    Course w.scene ((w.see (.called .disconnect w.gateway)).disconnect h.watched).scene := by
  have hlose : Course w.scene (w.change (·.loseContact.2)).scene :=
    w.course_change (c := .loseContact) rfl
  rw [disconnect_eq]
  show Course w.scene (World.scene (if w.gateway.loseContact.1 then _ else _))
  split
  · next hlost =>
    have hcause : (Occasion.called .disconnect w.gateway).cause? = some .transport := by
      rw [Gateway.loseContact_fst] at hlost
      exact if_pos hlost
    exact hlose.trans (course_report _ hh hcause)
  · next hquiet =>
    have hcause : (Occasion.called .disconnect w.gateway).cause? = none := by
      rw [Gateway.loseContact_fst] at hquiet
      exact if_neg hquiet
    exact hlose.trans (course_see _ (Occasion.isOrdinary_called hcause rfl))

/-- A device is taken, or it is the cause of a report. -/
theorem course_reconfigure (hh : h.Courses) (d : Device) :
    Course w.scene
      ((w.see (.called (.reconfigure d) w.gateway)).reconfigure h.watched d).2.scene := by
  unfold reconfigure
  cases hd : Configuration.ofDevice d with
  | error e =>
    have hcause : (Occasion.called (.reconfigure d) w.gateway).cause? = some .configuration :=
      (Op.cause?_of_invalid (Configuration.ofDevice_eq_error_iff.1 hd) w.gateway).1
    have hnote : Course w.scene (w.change (·.note (.rejected d e))).scene :=
      w.course_change (c := .remark (.rejected d e)) rfl
    exact hnote.trans (course_report _ hh hcause)
  | ok k =>
    have hinstall : w.gateway.installDevice d = .ok (w.gateway.install k) :=
      Gateway.installDevice_eq_ok hd
    have hrenew := Stretch.renew w.scene (Configuration.ofDevice_eq_ok hd).1 w.gateway
    rw [show w.scene.gateway.apply (.install d) = _ from Gateway.apply_of_ok hinstall] at hrenew
    exact .of_stretch hrenew

/-- An alarm is changed and the adapter told, unless that is refused. -/
theorem course_changeAlarm (hh : h.Courses) {op : Op}
    (hcause : op.cause? w.gateway = none) (hrenews : op.renews = false) (slot : UInt16) (a : Alarm)
    (active : Bool) :
    Course w.scene
      ((w.see (.called op w.gateway)).changeAlarm h.watched slot a active).2.scene := by
  have hcalled := w.course_see (Occasion.isOrdinary_called hcause hrenews)
  cases hg : w.gateway.attempt (.alarm slot a active) with
  | error e =>
    rw [changeAlarm_of_refused h.watched (w := w.see (.called op w.gateway)) hg]
    exact hcalled
  | ok g =>
    have halarm := Course.of_stretch (.alarm (w.see (.called op w.gateway)).scene hg)
    have hask := course_ask { w.see (.called op w.gateway) with gateway := g } hh
      (r := .alarm slot a active) nofun
    rw [changeAlarm_of_accepted h.watched (w := w.see (.called op w.gateway)) hg]
    exact hcalled.trans (halarm.trans hask)

/-- A change that may be refused is a course, if it is ordinary. -/
theorem course_attempt {c : Change} (hc : c.isOrdinary = true)
    {change : Gateway → Except Error Gateway} (hchange : ∀ g : Gateway, g.attempt c = change g) :
    Course w.scene (w.attempt change).2.scene := by
  have happly : Course w.scene ⟨w.gateway.apply c, w.scene.seen⟩ := w.course_change hc
  cases hg : w.gateway.attempt c with
  | error e =>
    rw [attempt_of_error ((hchange _).symm.trans hg)]
    exact .refl _
  | ok g =>
    rw [Gateway.apply_of_ok hg] at happly
    rw [attempt_of_ok ((hchange _).symm.trans hg)]
    exact happly

theorem course_writeInputs (hh : h.Courses) : Course w.scene (w.writeInputs h.watched).2.scene := by
  unfold writeInputs
  rcases w.gateway.packInputs (w.gateway.blankFrame .tx) with ⟨_ | _, frame⟩
  · exact .refl _
  · have hseen : Course w.scene (w.see (.asked (.txFrame frame))).scene :=
      w.course_see ⟨rfl, rfl, rfl, rfl⟩
    exact hseen.trans (w.course_ask hh nofun)

theorem course_readOutputs (hh : h.Courses) : Course w.scene (w.readOutputs h.watched).2.scene := by
  have hseen : Course w.scene
      (w.see (.asked (.rxFrame (w.gateway.config.layout.frame .rx).size))).scene :=
    w.course_see ⟨rfl, rfl, rfl, rfl⟩
  have hask := hseen.trans (w.course_ask hh nofun)
  unfold readOutputs
  generalize w.ask h.watched (.rxFrame (w.gateway.config.layout.frame .rx).size) = result at hask ⊢
  obtain ⟨frame, w'⟩ := result
  exact hask.trans (w'.course_attempt (c := .unpackOutputs frame.toArray) rfl fun g => rfl)

end World

/-- **An operation goes along a course,** with its call. -/
theorem Op.course_run {h : Handler (σ × List Occasion)} (hh : h.Courses) (op : Op)
    (w : World (σ × List Occasion)) :
    Course w.scene (op.run h.watched (w.see (.called op w.gateway))).2.scene := by
  have hcalled : op.cause? w.gateway = none → op.renews = false →
      Course w.scene (w.see (.called op w.gateway)).scene :=
    fun hcause hrenews => w.course_see (Occasion.isOrdinary_called hcause hrenews)
  have hplain : ∀ c : Change, op.cause? w.gateway = none → op.renews = false →
      c.isOrdinary = true →
        Course w.scene ((w.see (.called op w.gateway)).change (·.apply c)).scene :=
    fun c hcause hrenews hc => (hcalled hcause hrenews).trans (World.course_change _ hc)
  cases op with
  -- what gives cause for a report, or renews, has a law with its call in it
  | reconfigure d => exact w.course_reconfigure hh d
  | tick => exact w.course_tick hh
  | disconnect => exact w.course_disconnect hh
  | report f => exact w.course_report hh rfl
  | addAlarm slot a => exact w.course_changeAlarm hh rfl rfl slot a true
  | removeAlarm slot a => exact w.course_changeAlarm hh rfl rfl slot a false
  -- for all others the call is an ordinary occasion, and the rest follows it
  | work => exact (hcalled rfl rfl).trans (World.course_work _ hh)
  | workUnheard => exact (hcalled rfl rfl).trans (World.course_work _ hh.unheard)
  | writeInputs => exact (hcalled rfl rfl).trans (World.course_writeInputs _ hh)
  | readOutputs => exact (hcalled rfl rfl).trans (World.course_readOutputs _ hh)
  | writeParam slot param bits data =>
    exact (hcalled rfl rfl).trans
      (World.course_attempt _ (c := .writeParam slot param bits data) rfl fun g => rfl)
  | setSignal slot signal values =>
    exact (hcalled rfl rfl).trans
      (World.course_attempt _ (c := .setSignal slot signal values) rfl fun g => rfl)
  | setValue slot signal element value =>
    exact (hcalled rfl rfl).trans
      (World.course_attempt _ (c := .setValue slot signal element value) rfl fun g => rfl)
  | setSlotStatus slot status =>
    exact (hcalled rfl rfl).trans
      (World.course_attempt _ (c := .setSlotStatus slot status) rfl fun g => rfl)
  | unpackOutputs frame =>
    exact (hcalled rfl rfl).trans
      (World.course_attempt _ (c := .unpackOutputs frame) rfl fun g => rfl)
  -- these are single changes, and ordinary ones
  | avail => exact hplain .avail rfl rfl rfl
  | sync => exact hplain .sync rfl rfl rfl
  | activity => exact hplain .hear rfl rfl rfl
  | signalWork => exact hplain .signalWork rfl rfl rfl
  | lookForRing => exact hplain .lookForRing rfl rfl rfl
  | countCrc => exact hplain .countCrc rfl rfl rfl
  | setTransport t => exact hplain (.setTransport t) rfl rfl rfl
  | setFlags flags => exact hplain (.raiseFlags flags) rfl rfl rfl
  | clearFlags flags => exact hplain (.clearFlags flags) rfl rfl rfl
  | enableWatchdog on => exact hplain (.enableWatchdog on) rfl rfl rfl
  | selectCycle m => exact hplain (.selectCycle m) rfl rfl rfl
  | receive => exact hplain .receive rfl rfl rfl
  | takeWrite => exact hplain .takeWrite rfl rfl rfl

/-- A script goes along a course if the operations do that it calls. -/
theorem Script.course_run
    {watch : (op : Op) → World (σ × List Occasion) → op.Result × World (σ × List Occasion)}
    (h : ∀ op w, Course w.scene (watch op w).2.scene) (s : Script σ α)
    (w : World (σ × List Occasion)) : Course w.scene (s.watched.run watch w).2.scene := by
  induction s generalizing w with
  | done a => exact .refl _
  | look next ih => exact ih _ _ w
  | store outside next ih => exact ih { w with outside := (outside, w.outside.2) }
  | call op next ih => exact (h op w).trans (ih _ _)

/-- **Every operation that is watched goes along a course,** whatever adapter and application do. -/
theorem Environment.course_watch (env : Environment σ) (depth : Nat) (op : Op)
    (w : World (σ × List Occasion)) : Course w.scene (env.watch depth op w).2.scene := by
  induction depth generalizing op w with
  -- at the bottom nobody answers; above it, answers are scripts of calls one level below
  | zero => exact Op.course_run Handler.courses_nobody op w
  | succ depth ih =>
    refine Op.course_run ⟨fun r w => ?_, fun i w => ?_⟩ op w
    · exact Script.course_run ih (env.adapter r) w
    · exact Script.course_run ih (env.application i) w

/-! ### Sessions

A session begins with a gateway as it was made, and nothing was seen of it yet. It is where the laws
are stated: what was seen is then everything, and forgetting it leaves what happens when nobody
watches. -/

variable (r : Run) (env : Environment σ) (depth : Nat) (s : Script σ α) (outside : σ)

/-- **A session:** the gateway of a run as it was made, in the hands of a script and among the
scripts of an environment, while everything is taken down from the beginning. -/
def Run.session : α × World (σ × List Occasion) :=
  s.watched.run (env.watch depth) ⟨r.start, (outside, [])⟩

/-- It goes as it does when nobody takes anything down, -/
theorem Run.session_unseen :
    Prod.map id World.unseen (r.session env depth s outside) =
      s.run (env.perform depth) ⟨r.start, outside⟩ :=
  s.map_watched (env.map_watch depth) ⟨r.start, (outside, [])⟩

/-- it is a course, -/
theorem Run.course_session : Course ⟨r.start, []⟩ (r.session env depth s outside).2.scene :=
  s.course_run (env.course_watch depth) ⟨r.start, (outside, [])⟩

/-- and a run comes to its end. -/
theorem Run.exists_session :
    ∃ cs, ((begun r.made).andThen cs).state = (r.session env depth s outside).2.gateway := by
  obtain ⟨cs, hcs⟩ := (r.course_session env depth s outside).leads
  exact ⟨cs, ((begun r.made).state_andThen cs).trans hcs⟩

end Courses
end Fieldbus
