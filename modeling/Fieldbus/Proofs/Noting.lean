import Fieldbus.Proofs.Turn
import Fieldbus.Proofs.Contact
import Fieldbus.Proofs.Watching
/-!
Signals of work, taken down.

The journal does not tell of signals of work: all that they leave is the mark, which a second signal
does not change. So whoever gives one takes it down, with the number of times that the adapter was
asked for service until then. Any script can be made to do so (`Script.noted`), and so can all
scripts of an environment; for all else they go on as before (`Environment.map_noted`).

A signal is *heeded* as long as the mark of work is set, or the adapter was asked for service since
(`Gateway.Heeds`). Only a turn of the worker takes the mark, and it asks the adapter right then. So
among scripts, calls of scripts, and calls from there, no signal that was ever taken down goes
unheeded (`Environment.heeds_perform`).

It is the number of requests that a signal is taken down with, and not a time or a place in the
journal, because that is all the law needs: a signal is served once the adapter was asked for
service again. The number is of the state in which the signal is given, and the journal never loses
an entry, so what has been served stays served.

The diary is kept beside the surroundings, as what is seen of a gateway is by `Watching`, and for
the same reason: to take something down must not change what happens, which holds because operations
get to the surroundings only through their handler.
-/

namespace Fieldbus

/-! ## Taking down

A script is made to take down its signals by adding, before each call of one, the number of requests
for service so far. All else in it stays as it is. -/

/-- How often the adapter was asked for service. -/
def Gateway.services (g : Gateway) : Nat := g.journal.countP Event.isService

/-- The signals of work that were given, latest first: for each, how often the adapter had been
asked for service by then. -/
abbrev Diary := List Nat

section Noting
variable {σ α : Type}

/-- The script that does the same and takes down each signal of work that it gives. -/
def Script.noted : Script σ α → Script (σ × Diary) α
  | .done a => .done a
  | .look next => .look fun g outside => (next g outside.1).noted
  | .store outside next => .look fun _ before => .store (outside, before.2) next.noted
  | .call op next => .call op fun r =>
    if op = .signalWork then
      .look fun g outside => .store (outside.1, g.services :: outside.2) (next r).noted
    else (next r).noted

/-- The same scripts, taking down their signals. -/
def Environment.noted (env : Environment σ) : Environment (σ × Diary) where
  adapter r := (env.adapter r).noted
  application i := (env.application i).noted

/-- The world without what was taken down. -/
def World.unnoted (w : World (σ × Diary)) : World σ := w.map Prod.fst

/-! ## It changes nothing

To forget the diary is a map of worlds, and the general law of such maps has been shown for
watching. What is to be added is that a script which takes down its signals does what the script
does. -/

/-- A script that takes down its signals does what the script does. -/
theorem Script.map_noted {perform : (op : Op) → World σ → op.Result × World σ}
    {note : (op : Op) → World (σ × Diary) → op.Result × World (σ × Diary)}
    (h : ∀ op w, Prod.map id World.unnoted (note op w) = perform op w.unnoted) (s : Script σ α)
    (w : World (σ × Diary)) :
    Prod.map id World.unnoted (s.noted.run note w) = s.run perform w.unnoted := by
  induction s generalizing w with
  | done a => rfl
  | look next ih => exact ih _ _ w
  | store outside next ih => exact ih { w with outside := (outside, w.outside.2) }
  | call op next ih =>
    have hcall := h op w
    show _ = (next (perform op w.unnoted).1).run perform (perform op w.unnoted).2
    rw [← hcall]
    show Prod.map id World.unnoted (Script.run note (if op = .signalWork then _ else _) _) = _
    split
    · exact ih _ _
    · exact ih _ _

/-- **To take down signals changes nothing else.** -/
theorem Environment.map_noted (env : Environment σ) (depth : Nat) (op : Op)
    (w : World (σ × Diary)) :
    Prod.map id World.unnoted (env.noted.perform depth op w) = env.perform depth op w.unnoted := by
  induction depth generalizing op w with
  | zero => exact Op.map_run ⟨fun _ _ => rfl, fun _ _ => rfl⟩ op w
  | succ depth ih =>
    refine Op.map_run ⟨fun r v => ?_, fun i v => ?_⟩ op w
    · exact Script.map_noted ih (env.adapter r) v
    · exact congrArg Prod.snd (Script.map_noted ih (env.application i) v)

/-! ## No signal is lost

The invariant is of the world with its diary, and says of every number in it that work is marked or
that the adapter was asked again since. The mark is taken by the worker's turn only, and with it the
request for service; nobody has a turn between the two, and then every number in the diary is below
the number of requests. So the law of the world is kept at all points where the others come in, and
holds after any operation. -/

namespace Gateway
variable {g : Gateway} {n : Nat}

/-- **A signal is not lost,** which was given when the adapter had been asked for service `n` times:
work is still marked, or the adapter was asked again. -/
def Heeds (g : Gateway) (n : Nat) : Prop :=
  n ≤ g.services ∧ (g.interrupt = true ∨ n < g.services)

/-- What happened stays in the journal. -/
theorem services_le_apply (g : Gateway) (c : Change) : g.services ≤ (g.apply c).services := by
  obtain ⟨events, htells⟩ := g.exists_tells c
  show g.journal.countP _ ≤ (g.apply c).journal.countP _
  rw [show (g.apply c).journal = events.reverse ++ g.journal from htells.journal,
    List.countP_append]
  exact Nat.le_add_left _ _

/-- As long as the mark is left, every signal is heeded. -/
theorem Heeds.after (h : g.Heeds n) {cs : List Change} (hcs : ∀ c ∈ cs, c ≠ .takeInterrupt) :
    (g.after cs).Heeds n := by
  refine after_keeps (P := (Heeds · n)) (fun c hc g h => ?_) h
  have hle := g.services_le_apply c
  refine ⟨Nat.le_trans h.1 hle, ?_⟩
  rcases h.2 with hmark | hserved
  · exact Or.inl ((g.interrupt_apply (hcs c hc)).2 (Or.inl hmark))
  · exact Or.inr (Nat.lt_of_lt_of_le hserved hle)

/-- **Whoever takes the mark and asks for service has served all signals.** -/
theorem Heeds.lt_served (h : g.Heeds n) :
    n < (g.after [.takeInterrupt, .remark (.asked .service)]).services := by
  show n < (Event.asked Request.service :: g.journal).countP Event.isService
  rw [List.countP_cons_of_pos rfl]
  exact Nat.lt_succ_of_le h.1

end Gateway

/-- **No signal is lost:** neither one of those in `past`, nor one that was taken down. -/
def World.Heeds (past : Diary) (w : World (σ × Diary)) : Prop :=
  ∀ n ∈ past ++ w.outside.2, w.gateway.Heeds n

variable {past : Diary}

theorem World.Heeds.after {w : World (σ × Diary)} (h : w.Heeds past) {cs : List Change}
    (hcs : ∀ c ∈ cs, c ≠ .takeInterrupt) : (w.after cs).Heeds past :=
  fun n hn => (h n hn).after hcs

/-- Among peers that heed signals, so does every operation. -/
theorem Op.heeds_run {h : Handler (σ × Diary)} (hh : h.Keeps (World.Heeds past)) (op : Op)
    {w : World (σ × Diary)} (hw : w.Heeds past) : (op.run h w).2.Heeds past := by
  refine Op.keeps_run hh (fun cs hcs hne v hv => hv.after ?_) (fun _ _ n hn => ?_) hw
  · refine hcs.forall_mem (fun c hc htake => ?_) fun f => ⟨nofun, nofun⟩
    exact hne (hc.trans (by rw [htake]))
  · have hserved := (hw n hn).lt_served
    exact ⟨Nat.le_of_lt hserved, Or.inr hserved⟩

/-- Among calls that heed signals, so does every script, and its own signals with them. -/
theorem Script.heeds_run {perform : (op : Op) → World (σ × Diary) → op.Result × World (σ × Diary)}
    (hp : ∀ op (w : World (σ × Diary)), w.Heeds past → (perform op w).2.Heeds past)
    (hsignal : ∀ w : World (σ × Diary), (perform .signalWork w).2.gateway.interrupt = true)
    (s : Script σ α) {w : World (σ × Diary)} (hw : w.Heeds past) :
    (s.noted.run perform w).2.Heeds past := by
  induction s generalizing w with
  | done a => exact hw
  | look next ih => exact ih _ _ hw
  | store outside next ih => exact ih (w := { w with outside := (outside, w.outside.2) }) hw
  | call op next ih =>
    have hcall := hp op w hw
    show (Script.run perform (if op = .signalWork then _ else _) _).2.Heeds past
    split
    · next hop =>
      -- the signal has just been given, so work is marked
      refine ih _ fun n hn => ?_
      rcases List.mem_append.1 hn with hn | hn
      · exact hcall n (List.mem_append_left _ hn)
      · rcases List.mem_cons.1 hn with rfl | hn
        · subst hop
          exact ⟨Nat.le_refl _, Or.inl (hsignal w)⟩
        · exact hcall n (List.mem_append_right _ hn)
    · exact ih _ hcall

namespace Environment

/-- A signal marks work, whoever answers. -/
theorem interrupt_perform_signalWork {τ : Type} (env : Environment τ) (depth : Nat) (w : World τ) :
    (env.perform depth .signalWork w).2.gateway.interrupt = true := by
  rw [env.perform_eq]
  rfl

/-- **Operations among scripts lose no signal,** whatever the scripts do. -/
theorem heeds_perform (env : Environment σ) (depth : Nat) (op : Op) {w : World (σ × Diary)}
    (hw : w.Heeds past) : (env.noted.perform depth op w).2.Heeds past := by
  induction depth generalizing op w with
  | zero => exact Op.heeds_run (Handler.keeps_nobody _) op hw
  | succ depth ih =>
    have hscript : ∀ {β : Type} (s : Script σ β) {v : World (σ × Diary)}, v.Heeds past →
        (s.noted.run (env.noted.perform depth) v).2.Heeds past := by
      intro β s v hv
      exact Script.heeds_run (fun op v hv => ih op hv)
        (env.noted.interrupt_perform_signalWork depth) s hv
    exact Op.heeds_run ⟨fun r v hv => hscript (env.adapter r) hv,
      fun i v hv => hscript (env.application i) hv⟩ op hw

/-- Scripts among scripts lose no signal either, their own included. -/
theorem heeds_run (env : Environment σ) (depth : Nat) (s : Script σ α) {w : World (σ × Diary)}
    (hw : w.Heeds past) : (s.noted.run (env.noted.perform depth) w).2.Heeds past :=
  Script.heeds_run (fun op _ hv => env.heeds_perform depth op hv)
    (env.noted.interrupt_perform_signalWork depth) s hw

end Environment
end Noting
end Fieldbus
