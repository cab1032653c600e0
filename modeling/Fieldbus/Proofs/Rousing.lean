import Fieldbus.Proofs.Noting
/-!
Rousing the worker: the mark of work and the bell.

A signal of work sets the mark and rings the bell. Mark and ring are taken apart from each other,
each by its own change, so that they agree has to be said for either state of the worker. Where it
is up, a mark goes with a ring that is still pending (`Bell.Awake`); where it lies by the bell, a
mark goes with its having been woken (`Bell.Guarded`). Both hold on whatever adapter, application and
others do, as long as they leave it to the worker to wait for the bell (`Conduct.sparesBell`).

A turn of the worker takes the mark, and the transport is served then. So after a turn all signals
that were given before it are served (`Environment.lt_services_work`), and those that were given in
the meantime have rung for the next one (`Environment.awake_work`).

Why not one invariant for both states: between being woken and getting up the worker has no ring
pending, and may have work marked. What it has then is its being woken, and what it does next is to
get up and take its turn. Seen from there, a ring that is pending and a sleeper that was woken are
the two forms in which a signal can wait.

Nobody but the drive looks for rings, so all of this is said of what others do as long as they leave
the bell alone. An adapter that took a ring for itself could leave the worker asleep with work to
do.
-/

namespace Fieldbus

/-! ## The bell

Rings are not counted: one pending ring stands for all that came since the last was used up, and so
does one wakening. That is enough, as the mark is not counted either. -/

namespace Bell
variable {b : Bell} {marked : Bool}

/-- Whoever answers the bell is up, and if work is marked will find a ring pending. -/
structure Awake (b : Bell) (marked : Bool) : Prop where
  up : b.sleeper = .absent
  rung : marked = true → b.pending = true

/-- Whoever answers the bell lies by it, and as long as it sleeps no work is marked. -/
structure Guarded (b : Bell) (marked : Bool) : Prop where
  down : b.sleeper ≠ .absent
  quiet : b.sleeper = .asleep → marked = false

theorem Awake.ring (h : b.Awake marked) : b.ring.Awake true := by
  have hring : b.ring = { b with pending := true } := by
    unfold Bell.ring
    rw [h.up]
  rw [hring]
  exact ⟨h.up, fun _ => rfl⟩

theorem Guarded.ring (h : b.Guarded marked) : b.ring.Guarded true := by
  have hwoken : b.ring.sleeper = .woken := by
    unfold Bell.ring
    cases hsleeper : b.sleeper with
    | absent => exact absurd hsleeper h.down
    | asleep => rfl
    | woken => rfl
  exact ⟨by rw [hwoken]; nofun, by rw [hwoken]; nofun⟩

/-- So while it lies there no work is marked, or it has been woken. -/
theorem Guarded.unmarked_or_woken (h : b.Guarded marked) : marked = false ∨ b.sleeper = .woken := by
  cases hsleeper : b.sleeper with
  | absent => exact absurd hsleeper h.down
  | asleep => exact Or.inl (h.quiet hsleeper)
  | woken => exact Or.inr rfl

/-- Whoever lies down where no ring is pending guards the bell. -/
theorem Awake.sleep (h : b.Awake marked) (hsilent : b.pending = false) :
    b.sleep.2.Guarded marked := by
  have hunmarked : marked = false := by
    rw [← Bool.not_eq_true]
    intro hmarked
    rw [h.rung hmarked] at hsilent
    cases hsilent
  unfold Bell.sleep
  rw [hsilent]
  exact ⟨nofun, fun _ => hunmarked⟩

/-- Whoever finds a ring pending uses it up and stays up. -/
theorem sleeper_sleep_of_pending (h : b.pending = true) : b.sleep.2.sleeper = b.sleeper := by
  unfold Bell.sleep
  rw [h]
  rfl

end Bell

/-! ## Whoever leaves the bell alone

Of the changes that leave the bell to the worker, a signal is the only one that rings, and it sets
the mark with it; taking the mark clears it. Either invariant survives both, so it survives any
number of them (`Gateway.LeadsBy.bell`), and with them any operation and any script. -/

/-- A change that neither looks for a ring, nor lies down or gets up. -/
def Change.SparesBell (c : Change) : Prop := c ≠ .lookForRing ∧ c ≠ .lieDown ∧ c ≠ .getUp

/-- The conduct of leaving the bell to the one who drives. -/
def Conduct.sparesBell : Conduct := .only Change.SparesBell

/-- An operation that does not look for a ring. -/
def Op.LeavesBell (op : Op) : Prop := op ≠ .lookForRing

theorem Op.Makes.sparesBell {op : Op} {cs : List Change} (h : op.Makes cs) (hop : op.LeavesBell) :
    Conduct.sparesBell.Allows cs := by
  refine h.forall_mem (fun c hc => ?_) fun f => ⟨⟨nofun, nofun, nofun⟩, nofun, nofun, nofun⟩
  rw [hc] at h
  refine ⟨?_, ?_, ?_⟩ <;>
  · rintro rfl
    cases op with
    | lookForRing => exact absurd rfl hop
    | _ => simp [Op.Makes, Works, HandsOut, Serves, Reports] at h

theorem HandsOut.sparesBell {cs : List Change} (h : HandsOut cs) : Conduct.sparesBell.Allows cs :=
  @Op.Makes.sparesBell .work cs (Or.inr h) nofun

namespace Gateway
variable {g g' : Gateway} {P : Bell → Bool → Prop}

/-- **What a ring and the taking of the mark keep,** holds on as long as the bell is left alone. -/
theorem LeadsBy.bell (h : g.LeadsBy .sparesBell g')
    (hring : ∀ b marked, P b marked → P b.ring true) (htake : ∀ b marked, P b marked → P b false)
    (hg : P g.bell g.interrupt) : P g'.bell g'.interrupt := by
  obtain ⟨cs, hcs, rfl⟩ := h
  refine after_keeps (P := fun g => P g.bell g.interrupt) (fun c hc g hg => ?_) hg
  cases hrouses : c.rouses with
  | false =>
    have hsame := g.rousing_apply hrouses
    rw [show (g.apply c).bell = g.bell from congrArg Prod.snd hsame,
      show (g.apply c).interrupt = g.interrupt from congrArg Prod.fst hsame]
    exact hg
  | true =>
    have hspares := hcs c hc
    cases c with
    | signalWork => exact hring _ _ hg
    | takeInterrupt => exact htake _ _ hg
    | lookForRing => exact absurd rfl hspares.1
    | lieDown => exact absurd rfl hspares.2.1
    | getUp => exact absurd rfl hspares.2.2
    | _ => cases hrouses

theorem LeadsBy.awake (h : g.LeadsBy .sparesBell g') (hg : g.bell.Awake g.interrupt) :
    g'.bell.Awake g'.interrupt :=
  h.bell (fun _ _ hb => hb.ring) (fun _ _ hb => ⟨hb.up, nofun⟩) hg

theorem LeadsBy.guarded (h : g.LeadsBy .sparesBell g') (hg : g.bell.Guarded g.interrupt) :
    g'.bell.Guarded g'.interrupt :=
  h.bell (fun _ _ hb => hb.ring) (fun _ _ hb => ⟨hb.down, fun _ => rfl⟩) hg

/-- No call for service is ever forgotten. -/
theorem LeadsBy.services_le {k : Conduct} (h : g.LeadsBy k g') : g.services ≤ g'.services := by
  obtain ⟨cs, -, rfl⟩ := h
  exact after_keeps (fun c _ g' hle => Nat.le_trans hle (g'.services_le_apply c)) (Nat.le_refl _)

end Gateway

section Scripts
variable {σ α : Type}

/-- To take down signals is no call. -/
theorem Script.CallsOnly.noted {A : Op → Prop} {s : Script σ α} (h : s.CallsOnly A) :
    s.noted.CallsOnly A := by
  induction s with
  | done a => trivial
  | look next ih => exact fun g outside => ih g outside.1 (h g outside.1)
  | store outside next ih => exact fun _ _ => ih h
  | call op next ih =>
    refine ⟨h.1, fun r => ?_⟩
    show Script.CallsOnly A (if op = .signalWork then _ else _)
    split
    · exact fun _ _ => ih r (h.2 r)
    · exact ih r (h.2 r)

namespace Environment
variable {env : Environment σ}

theorem CallsOnly.noted {A : Op → Prop} (h : env.CallsOnly A) : env.noted.CallsOnly A :=
  ⟨fun r => (h.adapter r).noted, fun i => (h.application i).noted⟩

theorem fairBy_sparesBell (henv : env.CallsOnly Op.LeavesBell) (depth : Nat) :
    (env.peers depth).FairBy .sparesBell :=
  fairBy_peers (fun _ hop _ hcs => hcs.sparesBell hop) henv depth

theorem sparesBell_perform (henv : env.CallsOnly Op.LeavesBell) (depth : Nat) {op : Op}
    (hop : op.LeavesBell) (w : World σ) :
    w.gateway.LeadsBy .sparesBell (env.perform depth op w).2.gateway :=
  leadsBy_perform (fun _ hop _ hcs => hcs.sparesBell hop) henv depth op hop w

theorem sparesBell_run (henv : env.CallsOnly Op.LeavesBell) (depth : Nat) {s : Script σ α}
    (hs : s.CallsOnly Op.LeavesBell) (w : World σ) :
    w.gateway.LeadsBy .sparesBell (s.run (env.perform depth) w).2.gateway :=
  Script.leadsBy_run (fun _ hop w => sparesBell_perform henv depth hop w) hs w

/-- After a turn of the worker that is up, it is up, and work is marked only where a ring is
pending. -/
theorem awake_work (henv : env.CallsOnly Op.LeavesBell) (depth : Nat) {w : World σ}
    (hup : w.gateway.bell.sleeper = .absent) :
    (env.perform depth .work w).2.gateway.bell.Awake
      (env.perform depth .work w).2.gateway.interrupt := by
  have htaken : (w.change (·.takeInterrupt.2)).gateway.bell.Awake
      (w.change (·.takeInterrupt.2)).gateway.interrupt := ⟨hup, nofun⟩
  rw [env.perform_eq]
  exact (World.leadsBy_turn (fairBy_sparesBell henv depth) (fun _ hcs => hcs.sparesBell) w).awake
    htaken

/-- **A turn of the worker serves every signal that was given before.** -/
theorem lt_services_work (env : Environment σ) (depth : Nat) {w : World σ} {n : Nat}
    (hw : w.gateway.Heeds n) : n < (env.perform depth .work w).2.gateway.services := by
  have hfair := env.fairBy_free depth
  have hpeers : (env.peers depth).Keeps fun v => n < v.gateway.services :=
    ⟨fun r v hv => Nat.lt_of_lt_of_le hv (hfair.ask r v).services_le,
      fun i v hv => Nat.lt_of_lt_of_le hv (hfair.tell i v).services_le⟩
  have hchanges : ∀ cs, HandsOut cs →
      World.KeptBy (fun v : World σ => n < v.gateway.services) cs := by
    intro cs _ v hv
    exact Nat.lt_of_lt_of_le hv
      (Gateway.leadsBy_after (Conduct.free_allows cs) v.gateway).services_le
  rw [env.perform_eq]
  refine World.keeps_work hpeers hchanges (fun _ => hw.lt_served) fun hidle => ?_
  exact hw.2.resolve_left (by rw [hidle]; nofun)

end Environment
end Scripts
end Fieldbus
