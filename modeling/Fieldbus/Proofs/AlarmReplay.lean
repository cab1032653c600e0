import Mathlib.Data.List.Nodup
import Fieldbus.Proofs.Refusal
import Fieldbus.Proofs.Watching
/-!
Adapter and gateway know the same alarms.

The adapter is told of each change of an alarm by one report. Whoever replays the reports since the
device was replaced last, from no alarm on, has the active alarms of every slot in the order they
were raised (`Stretch.replays`). A report that clears an alarm takes out all that are equal to it,
while the gateway takes out the first; it is the same because no alarm is twice in the list of a
slot (`AlarmSet.Distinct`).

The state of a gateway has the alarms, and what was seen of it has the reports. The invariant
compares the two (`Scene.Replays`), and goes along a watched run stretch by stretch:

1. an ordinary change and an ordinary occasion touch neither;
2. the report of a fault is no report of an alarm, and its cause is neither;
3. a device that is taken empties both, as only what was told since counts;
4. an alarm that is changed is changed on both sides, in the list of its slot and of no other.

The fourth is the only one with something in it, and it is where repetitions matter. That there are
none is an invariant of the gateway by itself, since an alarm is raised only where the slot does not
have it; so it is shown of single changes, and of runs that nobody watches too.
-/

namespace Fieldbus

/-! ## Replaying reports

Replaying goes through the reports oldest first, and keeps those of one slot. Raising puts the alarm
at the end of the list. It is a plain fold, with no condition that could fail: reports of changes
that were refused are never seen, so replaying has nothing to check. -/

/-- The active alarms of a slot after one of them was raised, or cleared. -/
def changedAlarms (before : List Alarm) (a : Alarm) : (active : Bool) → List Alarm
  | true => before ++ [a]
  | false => before.filter (· != a)

/-- **The active alarms of a slot as the reports tell,** from none on. -/
def replayAlarms (slot : UInt16) (reports : List AlarmReport) : List Alarm :=
  reports.foldl
    (fun before r => if r.slot = slot then changedAlarms before r.alarm r.active else before) []

theorem replayAlarms_append_singleton (slot : UInt16) (reports : List AlarmReport)
    (r : AlarmReport) :
    replayAlarms slot (reports ++ [r]) =
      if r.slot = slot then changedAlarms (replayAlarms slot reports) r.alarm r.active
      else replayAlarms slot reports := List.foldl_append ..

/-- What the adapter was told of alarms since the device was replaced last. -/
def alarmsSince (seen : List Occasion) : List AlarmReport :=
  gathered Occasion.alarm? (seen.takeWhile fun o => !o.renews)

/-- Nothing was told since then if it was replaced just now. -/
theorem alarmsSince_cons_of_renews {o : Occasion} (h : o.renews = true) (seen : List Occasion) :
    alarmsSince (o :: seen) = [] := by
  unfold alarmsSince
  rw [List.takeWhile_cons_of_neg (by rw [h]; decide)]
  rfl

/-- Anything else adds what it tells. -/
theorem alarmsSince_cons {o : Occasion} (h : o.renews = false) (seen : List Occasion) :
    alarmsSince (o :: seen) = alarmsSince seen ++ o.alarm?.toList := by
  unfold alarmsSince
  rw [List.takeWhile_cons_of_pos (by rw [h]; rfl), gathered_cons]

/-! ## The alarms of a gateway

A change of an alarm is said as one equivalence: when it is accepted, and what the list of its slot
is then. All other lists are as before, since only one slot of the array is replaced. No other
change but that of the device touches the alarms at all, which is drawn from what changes leave
alone. -/

namespace AlarmSet
variable {s t : AlarmSet} {slot : UInt16} {a : Alarm} {before : List Alarm}

/-- No alarm is twice in the list of a slot. -/
def Distinct (s : AlarmSet) : Prop := ∀ slot active, s.get slot = .ok active → active.Nodup

/-- A set of alarms with another list for one slot. -/
def withSlot (s : AlarmSet) (slot : UInt16) (active : List Alarm) : AlarmSet :=
  ⟨s.slots.setIfInBounds slot.toNat active⟩

theorem get_withSlot_self (h : s.get slot = .ok before) (active : List Alarm) :
    (s.withSlot slot active).get slot = .ok active := by
  have hlt := (Array.getElem?_eq_some_iff.1 (get_eq_ok_iff.1 h)).1
  exact get_eq_ok_iff.2 (Array.getElem?_setIfInBounds_self_of_lt hlt)

theorem get_withSlot_of_ne {other : UInt16} (h : other ≠ slot) (active : List Alarm) :
    (s.withSlot slot active).get other = s.get other := by
  have hne : slot.toNat ≠ other.toNat := fun heq => h (UInt16.toNat_inj.1 heq).symm
  unfold get withSlot
  rw [Array.getElem?_setIfInBounds_ne hne]

/-- An alarm is raised where the slot exists and does not have it. -/
theorem add_eq_ok_iff : s.add slot a = .ok t ↔
    ∃ before, s.get slot = .ok before ∧ a ∉ before ∧ t = s.withSlot slot (before ++ [a]) := by
  unfold add
  constructor
  · intro hadd
    split at hadd
    · cases hadd
    · next before hget =>
      split at hadd
      · cases hadd
      · next hnew =>
        cases hadd
        exact ⟨before, hget, hnew, rfl⟩
  · rintro ⟨before, hget, hnew, rfl⟩
    rw [hget]
    exact if_neg hnew

/-- It is cleared where the slot has it. -/
theorem remove_eq_ok_iff : s.remove slot a = .ok t ↔
    ∃ before, s.get slot = .ok before ∧ a ∈ before ∧ t = s.withSlot slot (before.erase a) := by
  unfold remove
  constructor
  · intro hremove
    split at hremove
    · cases hremove
    · next before hget =>
      split at hremove
      · next hold =>
        cases hremove
        exact ⟨before, hget, hold, rfl⟩
      · cases hremove
  · rintro ⟨before, hget, hold, rfl⟩
    rw [hget]
    exact if_pos hold

/-- A list without repetitions for one slot keeps the others so. -/
theorem Distinct.withSlot (h : s.Distinct) (hslot : s.get slot = .ok before) {active : List Alarm}
    (hactive : active.Nodup) : (s.withSlot slot active).Distinct := by
  intro other l hl
  by_cases heq : other = slot
  · subst heq
    rw [get_withSlot_self hslot] at hl
    cases hl
    exact hactive
  · rw [get_withSlot_of_ne heq] at hl
    exact h other l hl

/-- Raising an alarm makes none twice, -/
theorem Distinct.add (h : s.Distinct) (hadd : s.add slot a = .ok t) : t.Distinct := by
  obtain ⟨before, hget, hnew, rfl⟩ := add_eq_ok_iff.1 hadd
  refine h.withSlot hget (List.nodup_append.2 ⟨h slot before hget, List.nodup_singleton a, ?_⟩)
  intro x hx y hy heq
  rw [heq, List.mem_singleton.1 hy] at hx
  exact hnew hx

/-- and neither does clearing one. -/
theorem Distinct.remove (h : s.Distinct) (hremove : s.remove slot a = .ok t) : t.Distinct := by
  obtain ⟨before, hget, -, rfl⟩ := remove_eq_ok_iff.1 hremove
  exact h.withSlot hget ((h slot before hget).erase a)

/-- The slots that have alarms, if only none, are those there are. -/
theorem get_eq_error_iff {e : Error} :
    s.get slot = .error e ↔ s.slots.size ≤ slot.toNat ∧ e = .noSlot := by
  rw [← Array.getElem?_eq_none_iff]
  unfold get
  cases s.slots[slot.toNat]? with
  | none =>
    refine ⟨fun h => ⟨rfl, (Except.error.inj h).symm⟩, ?_⟩
    rintro ⟨-, rfl⟩
    rfl
  | some active => exact ⟨nofun, nofun⟩

/-- There is no alarm at first. -/
theorem get_none {d : Device} {active : List Alarm} (h : (none d).get slot = .ok active) :
    active = [] := by
  have hslot := get_eq_ok_iff.1 h
  unfold none at hslot
  rw [Array.getElem?_map] at hslot
  obtain ⟨_, -, rfl⟩ := Option.map_eq_some_iff.1 hslot
  rfl

theorem distinct_none (d : Device) : (none d).Distinct := by
  intro slot active hactive
  rw [get_none hactive]
  exact List.nodup_nil

end AlarmSet

/-! ### Changes of a gateway

From sets of alarms to gateways: which change is accepted, what it does to the list of its slot, and
that no other change does anything to any list. -/

/-- A fresh configuration has no alarm. -/
theorem Configuration.alarms_ofDevice {d : Device} {k : Configuration} (h : ofDevice d = .ok k) :
    k.alarms = .none d := congrArg Configuration.alarms (ofDevice_eq_ok h).2.2

namespace Gateway
variable {g g' : Gateway} {slot : UInt16} {a : Alarm} {active : Bool}

/-- The gateway with other alarms. -/
def withAlarms (g : Gateway) (alarms : AlarmSet) : Gateway := { g with config.alarms := alarms }

/-- **A change of an alarm is accepted** where the slot exists, and has the alarm exactly if it is
to be cleared. -/
theorem attempt_alarm_eq_ok_iff : g.attempt (.alarm slot a active) = .ok g' ↔
    ∃ before, g.alarms slot = .ok before ∧ (a ∈ before ↔ active = false) ∧
      g' = (g.withAlarms (g.config.alarms.withSlot slot
        (if active then before ++ [a] else before.erase a))).note
          (.alarmChanged slot a active) := by
  -- raising and clearing have each their own law for the set of alarms
  cases active with
  | true =>
    show g.addAlarm slot a = .ok g' ↔ _
    unfold addAlarm
    constructor
    · intro hadd
      split at hadd
      · cases hadd
      · next alarms halarms =>
        obtain ⟨before, hget, hnew, rfl⟩ := AlarmSet.add_eq_ok_iff.1 halarms
        exact ⟨before, hget, iff_of_false hnew nofun, (Except.ok.inj hadd).symm⟩
    · rintro ⟨before, hget, hnew, rfl⟩
      have hnot : a ∉ before := fun hmem => nomatch hnew.1 hmem
      rw [AlarmSet.add_eq_ok_iff.2 ⟨before, hget, hnot, rfl⟩]
      rfl
  | false =>
    show g.removeAlarm slot a = .ok g' ↔ _
    unfold removeAlarm
    constructor
    · intro hremove
      split at hremove
      · cases hremove
      · next alarms halarms =>
        obtain ⟨before, hget, hold, rfl⟩ := AlarmSet.remove_eq_ok_iff.1 halarms
        exact ⟨before, hget, iff_of_true hold rfl, (Except.ok.inj hremove).symm⟩
    · rintro ⟨before, hget, hold, rfl⟩
      rw [AlarmSet.remove_eq_ok_iff.2 ⟨before, hget, hold.2 rfl, rfl⟩]
      rfl

/-- The list of its slot is changed as a report of it says, and no other list. -/
theorem alarms_of_attempt (hdistinct : g.config.alarms.Distinct)
    (h : g.attempt (.alarm slot a active) = .ok g') :
    (∃ before, g.alarms slot = .ok before ∧
      g'.alarms slot = .ok (changedAlarms before a active)) ∧
      ∀ other, other ≠ slot → g'.alarms other = g.alarms other := by
  obtain ⟨before, hget, -, rfl⟩ := attempt_alarm_eq_ok_iff.1 h
  have hchanged : (if active then before ++ [a] else before.erase a) =
      changedAlarms before a active := by
    cases active with
    | true => rfl
    | false => exact (hdistinct slot before hget).erase_eq_filter a
  rw [hchanged]
  exact ⟨⟨before, hget, AlarmSet.get_withSlot_self hget _⟩,
    fun other hother => AlarmSet.get_withSlot_of_ne hother _⟩

/-- Nothing but a change of an alarm or of the device touches the alarms. -/
theorem alarms_apply {c : Change} (halarm : ∀ slot a active, c ≠ .alarm slot a active)
    (hdevice : ∀ d, c ≠ .install d) : (g.apply c).config.alarms = g.config.alarms := by
  refine g.config_apply (P := fun k => k.alarms = g.config.alarms) c rfl fun k hk => ?_
  cases hk with
  | installed _ => exact absurd rfl (hdevice _)
  | alarmAdded _ => exact absurd rfl (halarm _ _ true)
  | alarmRemoved _ => exact absurd rfl (halarm _ _ false)
  | _ => rfl

/-- **No change makes an alarm twice.** -/
theorem distinct_apply (h : g.config.alarms.Distinct) (c : Change) :
    (g.apply c).config.alarms.Distinct := by
  refine g.config_apply (P := fun k => k.alarms.Distinct) c h fun k hk => ?_
  cases hk with
  | installed hd =>
    rw [Configuration.alarms_ofDevice hd]
    exact AlarmSet.distinct_none _
  | alarmAdded hadd => exact h.add hadd
  | alarmRemoved hremove => exact h.remove hremove
  | _ => exact h

/-- With the device, the alarms begin anew. -/
theorem alarms_install {d : Device} (hd : d.validate = .ok ()) :
    (g.apply (.install d)).config.alarms = .none d := by
  obtain ⟨k, hk⟩ := Configuration.exists_ofDevice hd
  have hinstall : g.attempt (.install d) = .ok (g.install k) := installDevice_eq_ok hk
  rw [apply_of_ok hinstall]
  exact Configuration.alarms_ofDevice hk

end Gateway

/-! ## Over a course

The invariant along a watched run. It is kept by every stretch (`Stretch.replays`), so by every
course, and it holds at the start of a session, where no alarm is active and nothing was seen. -/

/-- **The reports that were seen give the alarms of every slot,** none of them twice. -/
structure Scene.Replays (s : Scene) : Prop where
  replayed : ∀ slot active, s.gateway.alarms slot = .ok active →
    active = replayAlarms slot (alarmsSince s.seen)
  distinct : s.gateway.config.alarms.Distinct

/-- What is a cause for a report is no report of an alarm, and no device is taken with it. -/
theorem Occasion.ordinary_of_cause {o : Occasion} {f : Fault} (h : o.cause? = some f) :
    o.alarm? = none ∧ o.renews = false := by
  cases o with
  | asked r => cases h
  | answered r reply => exact ⟨rfl, rfl⟩
  | called op g =>
    refine ⟨rfl, ?_⟩
    cases op with
    | reconfigure d =>
      cases hd : d.validate with
      | error e => exact (Op.cause?_of_invalid hd g).2
      | ok _ => cases (Op.renews_of_valid hd g).1.symm.trans h
    | _ => rfl

/-- An occasion that tells of no alarm leaves what is replayed. -/
theorem Scene.Replays.see {s : Scene} (h : s.Replays) {o : Occasion} (halarm : o.alarm? = none)
    (hrenews : o.renews = false) : Scene.Replays { s with seen := o :: s.seen } := by
  have hsame : alarmsSince (o :: s.seen) = alarmsSince s.seen := by
    rw [alarmsSince_cons hrenews, halarm]
    exact List.append_nil _
  refine ⟨fun slot active hactive => ?_, h.distinct⟩
  rw [show alarmsSince _ = _ from hsame]
  exact h.replayed slot active hactive

/-- Neither does a change that touches no alarm. -/
theorem Scene.Replays.change {s : Scene} (h : s.Replays) {c : Change}
    (hc : (s.gateway.apply c).config.alarms = s.gateway.config.alarms) :
    Scene.Replays { s with gateway := s.gateway.apply c } := by
  refine ⟨fun slot active hactive => ?_, Gateway.distinct_apply h.distinct c⟩
  unfold Gateway.alarms at hactive
  rw [hc] at hactive
  exact h.replayed slot active hactive

/-- **Every stretch keeps reports and alarms together.** -/
theorem Stretch.replays {s s' : Scene} (h : Stretch s s') (hs : s.Replays) : s'.Replays := by
  cases h with
  | @change c hc =>
    refine hs.change (Gateway.alarms_apply ?_ ?_)
    · rintro slot a active rfl
      cases active <;> cases hc
    · rintro d rfl
      cases hc
  | see ho => exact hs.see ho.alarm ho.renews
  | @report o f ho =>
    obtain ⟨halarm, hrenews⟩ := Occasion.ordinary_of_cause ho
    -- the report and its cause are both passed over
    have hkept := hs.change (c := .fault f) rfl
    exact (hkept.see halarm hrenews).see rfl rfl
  | @renew d hd g =>
    -- both sides begin anew
    have hnone := Gateway.alarms_install (g := s.gateway) hd
    have hrenews : (Occasion.called (.reconfigure d) g).renews = true :=
      (Op.renews_of_valid hd g).2
    refine ⟨fun slot active hactive => ?_, Gateway.distinct_apply hs.distinct _⟩
    · rw [show alarmsSince _ = _ from alarmsSince_cons_of_renews hrenews _]
      unfold Gateway.alarms at hactive
      rw [hnone] at hactive
      exact AlarmSet.get_none hactive
  | @alarm slot a active g hg =>
    obtain ⟨⟨before, hbefore, hafter⟩, hothers⟩ := Gateway.alarms_of_attempt hs.distinct hg
    have hdistinct := Gateway.distinct_apply hs.distinct (.alarm slot a active)
    rw [Gateway.apply_of_ok hg] at hdistinct
    have hseen : alarmsSince (.asked (.alarm slot a active) :: s.seen) =
        alarmsSince s.seen ++ [⟨slot, a, active⟩] := alarmsSince_cons rfl _
    refine ⟨fun other l hl => ?_, hdistinct⟩
    rw [show alarmsSince _ = _ from hseen, replayAlarms_append_singleton]
    -- the slot of the alarm goes on by the report, the others are not touched by it
    by_cases heq : slot = other
    · subst heq
      rw [if_pos rfl, ← hs.replayed slot before hbefore]
      exact Except.ok.inj (hl.symm.trans hafter)
    · rw [if_neg heq]
      exact hs.replayed other l ((hothers other fun h => heq h.symm).symm.trans hl)

/-! ## The alarms of a run

The law for all that can be asked of alarms in a run: what the reports give, that nothing is twice
in a list, which slots have one, when raising and clearing succeed, and that a refused one leaves
the whole world as it is. -/

/-- **No alarm is ever twice in the list of a slot.** -/
theorem Run.alarms_distinct (r : Run) : r.state.config.alarms.Distinct := by
  induction r using Run.induct with
  | @hmade s d g h =>
    show g.config.alarms.Distinct
    rw [Configuration.alarms_ofDevice (Gateway.fixed_of_make h).2]
    exact AlarmSet.distinct_none d
  | hnext r c ih =>
    rw [r.state_next]
    exact Gateway.distinct_apply ih c

/-- The slots of a run are those of its device. -/
theorem Run.alarms_eq_error_iff (r : Run) {slot : UInt16} {e : Error} :
    r.state.alarms slot = .error e ↔
      r.state.config.device.slots.size ≤ slot.toNat ∧ e = .noSlot := by
  rw [← r.coherent.alarms]
  exact AlarmSet.get_eq_error_iff

/-- A slot of the device has the only list that it can have. -/
theorem Run.alarms_eq (r : Run) (slot : UInt16) (l : List Alarm)
    (h : ∀ active, r.state.alarms slot = .ok active → active = l) :
    r.state.alarms slot =
      if slot.toNat < r.state.config.device.slots.size then .ok l else .error .noSlot := by
  split
  · next hlt =>
    cases hget : r.state.alarms slot with
    | error e => exact absurd (r.alarms_eq_error_iff.1 hget).1 (Nat.not_le.2 hlt)
    | ok active => rw [h active hget]
  · next hge => exact r.alarms_eq_error_iff.2 ⟨Nat.not_lt.1 hge, rfl⟩

/-- The answer to the change of an alarm does not depend on what is done about it. -/
theorem World.changeAlarm_eq_ok_iff {σ : Type} (h : Handler σ) (w : World σ) (slot : UInt16)
    (a : Alarm) (active : Bool) : (w.changeAlarm h slot a active).1 = .ok () ↔
      ∃ before, w.gateway.alarms slot = .ok before ∧ (a ∈ before ↔ active = false) := by
  constructor
  · intro hok
    cases hg : w.gateway.attempt (.alarm slot a active) with
    | error e =>
      rw [changeAlarm_of_refused h hg] at hok
      cases hok
    | ok g =>
      obtain ⟨before, hget, hmem, -⟩ := Gateway.attempt_alarm_eq_ok_iff.1 hg
      exact ⟨before, hget, hmem⟩
  · rintro ⟨before, hget, hmem⟩
    have hg := Gateway.attempt_alarm_eq_ok_iff.2 ⟨before, hget, hmem, rfl⟩
    rw [changeAlarm_of_accepted h hg]

/-- **How the alarms of a run are known.** -/
structure Run.ReplaysAlarms (r : Run) : Prop where
  /-- In every session from the start on, whatever adapter and application do, the reports since the
  device was replaced last give the active alarms of every slot of the device, in order. -/
  replayed : ∀ {σ α : Type} (env : Environment σ) (depth : Nat) (s : Script σ α) (outside : σ)
    (slot : UInt16),
    (r.session env depth s outside).2.gateway.alarms slot =
      if slot.toNat < (r.session env depth s outside).2.gateway.config.device.slots.size then
        .ok (replayAlarms slot (alarmsSince (r.session env depth s outside).2.scene.seen))
      else .error .noSlot
  /-- A session is what happens when nobody takes anything down, -/
  unseen : ∀ {σ α : Type} (env : Environment σ) (depth : Nat) (s : Script σ α) (outside : σ),
    Prod.map id World.unseen (r.session env depth s outside) =
      s.run (env.perform depth) ⟨r.start, outside⟩
  /-- and a run comes to its end. -/
  reached : ∀ {σ α : Type} (env : Environment σ) (depth : Nat) (s : Script σ α) (outside : σ),
    ∃ cs, ((Run.begun r.made).andThen cs).state = (r.session env depth s outside).2.gateway
  /-- No alarm is twice in the list of a slot. -/
  distinct : ∀ slot active, r.state.alarms slot = .ok active → active.Nodup
  /-- The slots that have a list are those of the device. -/
  exists_iff : ∀ slot, (∃ active, r.state.alarms slot = .ok active) ↔
    slot.toNat < r.state.config.device.slots.size
  /-- An alarm is raised exactly where the slot exists and does not have it, -/
  raised : ∀ {σ : Type} (h : Handler σ) (w : World σ) (slot : UInt16) (a : Alarm),
    w.gateway = r.state → ((Op.run h (.addAlarm slot a) w).1 = .ok () ↔
      ∃ active, r.state.alarms slot = .ok active ∧ a ∉ active)
  /-- and cleared exactly where the slot exists and has it. -/
  cleared : ∀ {σ : Type} (h : Handler σ) (w : World σ) (slot : UInt16) (a : Alarm),
    w.gateway = r.state → ((Op.run h (.removeAlarm slot a) w).1 = .ok () ↔
      ∃ active, r.state.alarms slot = .ok active ∧ a ∈ active)
  /-- A change of an alarm leaves all other slots alone, -/
  others : ∀ (slot other : UInt16) (a : Alarm) (active : Bool), other ≠ slot →
    (r.next (.alarm slot a active)).state.alarms other = r.state.alarms other
  /-- and any change but that of the device leaves all alone. -/
  untouched : ∀ c : Change, (∀ slot a active, c ≠ .alarm slot a active) → (∀ d, c ≠ .install d) →
    ∀ slot, (r.next c).state.alarms slot = r.state.alarms slot
  /-- What is refused is not reported: it leaves the whole world as it is. -/
  refused : ∀ {σ : Type} (h : Handler σ) (w : World σ) (slot : UInt16) (a : Alarm) (e : Error),
    ((Op.run h (.addAlarm slot a) w).1 = .error e → (Op.run h (.addAlarm slot a) w).2 = w) ∧
      ((Op.run h (.removeAlarm slot a) w).1 = .error e → (Op.run h (.removeAlarm slot a) w).2 = w)

/-- **Adapter and gateway know the same alarms,** in every run. -/
theorem Run.alarms_replayed (r : Run) : r.ReplaysAlarms where
  replayed env depth s outside slot := by
    have hstart : Scene.Replays ⟨r.start, []⟩ := by
      have hnone := Configuration.alarms_ofDevice (Gateway.fixed_of_make r.made).2
      refine ⟨fun slot active hactive => ?_, ?_⟩
      · unfold Gateway.alarms at hactive
        rw [hnone] at hactive
        exact AlarmSet.get_none hactive
      · rw [show r.start.config.alarms = _ from hnone]
        exact AlarmSet.distinct_none _
    have hreplays := (r.course_session env depth s outside).keeps hstart
      fun _ _ hx => hx.replays
    obtain ⟨cs, hcs⟩ := r.exists_session env depth s outside
    have hlists := ((Run.begun r.made).andThen cs).alarms_eq slot
      (replayAlarms slot (alarmsSince (r.session env depth s outside).2.scene.seen))
    rw [hcs] at hlists
    exact hlists (hreplays.replayed slot)
  unseen env depth s outside := r.session_unseen env depth s outside
  reached env depth s outside := r.exists_session env depth s outside
  distinct := r.alarms_distinct
  exists_iff slot := by
    cases hget : r.state.alarms slot with
    | error e =>
      refine iff_of_false (fun ⟨_, hok⟩ => nomatch hok) ?_
      exact Nat.not_lt.2 (r.alarms_eq_error_iff.1 hget).1
    | ok active =>
      refine iff_of_true ⟨active, rfl⟩ (Nat.lt_of_not_le fun hle => ?_)
      cases (r.alarms_eq_error_iff.2 ⟨hle, rfl⟩).symm.trans hget
  raised h w slot a hw := by
    rw [← hw]
    exact (w.changeAlarm_eq_ok_iff h slot a true).trans (by simp)
  cleared h w slot a hw := by
    rw [← hw]
    exact (w.changeAlarm_eq_ok_iff h slot a false).trans (by simp)
  others slot other a active hother := by
    rw [r.state_next]
    cases hg : r.state.attempt (.alarm slot a active) with
    | error e => rw [Gateway.apply_of_error hg]
    | ok g =>
      rw [Gateway.apply_of_ok hg]
      exact (Gateway.alarms_of_attempt r.alarms_distinct hg).2 other hother
  untouched c halarm hdevice slot := by
    rw [r.state_next]
    unfold Gateway.alarms
    rw [Gateway.alarms_apply halarm hdevice]
  refused h w slot a e :=
    ⟨fun he => World.changeAlarm_of_error h he, fun he => World.changeAlarm_of_error h he⟩

end Fieldbus
