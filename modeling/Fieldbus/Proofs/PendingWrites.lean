import Fieldbus.Proofs.Coherence
/-!
No parameter write is lost, and none is handed to the host twice.

What a run did to the parameters since their last reconfiguration is a list of deeds, latest first:
successful writes, and writes taken by the host (`Run.deeds`). The list of pending writes is nothing
but a digest of these deeds:

* a parameter is pending when it was written and not taken since (`Untaken`);
* the pending ones stand in the order in which they became so (`OpenedAt`);
* what is handed over is the last value written (`Current`).

So the message that announces a write may be dropped: who takes writes until there is none has seen
the current value of every parameter that was written (`Seen`).

The argument has two halves. A change of a gateway is one of four steps of its parameter store
(`Gateway.storeStep`), and each of them keeps store and deeds in step (`Tracks.step`).

The list of deeds is not kept by the gateway, and the invariant needs all of it: that a parameter is
pending says something of the past back to when it was last taken, which may be any number of deeds
ago. Each of the four notions above is an instance of `Since`, that something happened and nothing
of another kind did after it, and a store is held against all four at once.

The queue of messages plays no part in this. A write is announced by a message, but who takes writes
is not told which; so nothing here depends on whether the message got through.
-/

namespace Fieldbus

/-! ## Deeds

How the notions change with one more deed, for a deed that writes and one that takes. The rest are
facts about the past alone: a parameter is opened at one time only, what was written has a last
value, and what was not taken was opened at some time. -/

/-- Something done to a parameter, which is named by its slot and its index there. -/
inductive Deed where
  /-- A value was written. -/
  | wrote (key : UInt16 × UInt16) (value : Bytes)
  /-- The host took a write, with this value. -/
  | took (key : UInt16 × UInt16) (value : Bytes)
deriving DecidableEq

/-- The parameter was written, and not taken since. -/
def Untaken (key : UInt16 × UInt16) : List Deed → Prop :=
  Since (fun d _ => ∃ v, d = .wrote key v) (fun d => ∀ v, d ≠ .took key v)

/-- The parameter was written first after `n` other deeds, counting from when it was last taken. -/
def OpenedAt (key : UInt16 × UInt16) (n : Nat) : List Deed → Prop :=
  Since (fun d before => (∃ v, d = .wrote key v) ∧ ¬ Untaken key before ∧ before.length = n)
    (fun d => ∀ v, d ≠ .took key v)

/-- The last value written to the parameter. -/
def Current (key : UInt16 × UInt16) (value : Bytes) : List Deed → Prop :=
  Since (fun d _ => d = .wrote key value) (fun d => ∀ v, d ≠ .wrote key v)

/-- The host took the parameter with this value, and it was neither written nor taken since. -/
def Seen (key : UInt16 × UInt16) (value : Bytes) : List Deed → Prop :=
  Since (fun d _ => d = .took key value) (fun d => ∀ v, d ≠ .wrote key v ∧ d ≠ .took key v)

section Past
variable {key k : UInt16 × UInt16} {value v : Bytes} {n : Nat} {past : List Deed}

theorem untaken_wrote : Untaken key (.wrote k v :: past) ↔ key = k ∨ Untaken key past := by
  unfold Untaken
  rw [since_cons]
  constructor
  · rintro (⟨v', h⟩ | ⟨-, h⟩)
    · cases h
      exact Or.inl rfl
    · exact Or.inr h
  · rintro (rfl | h)
    · exact Or.inl ⟨v, rfl⟩
    · exact Or.inr ⟨fun _ e => (nomatch e), h⟩

theorem untaken_took : Untaken key (.took k v :: past) ↔ key ≠ k ∧ Untaken key past := by
  unfold Untaken
  rw [since_cons]
  constructor
  · rintro (⟨v', h⟩ | ⟨hne, h⟩)
    · cases h
    · refine ⟨?_, h⟩
      rintro rfl
      exact hne v rfl
  · rintro ⟨hne, h⟩
    refine Or.inr ⟨fun v' e => ?_, h⟩
    cases e
    exact hne rfl

theorem openedAt_wrote : OpenedAt key n (.wrote k v :: past) ↔
    (key = k ∧ ¬ Untaken key past ∧ past.length = n) ∨ OpenedAt key n past := by
  unfold OpenedAt
  rw [since_cons]
  constructor
  · rintro (⟨⟨v', h⟩, hopen⟩ | ⟨-, h⟩)
    · cases h
      exact Or.inl ⟨rfl, hopen⟩
    · exact Or.inr h
  · rintro (⟨rfl, hopen⟩ | h)
    · exact Or.inl ⟨⟨v, rfl⟩, hopen⟩
    · exact Or.inr ⟨fun _ e => (nomatch e), h⟩

theorem openedAt_took : OpenedAt key n (.took k v :: past) ↔ key ≠ k ∧ OpenedAt key n past := by
  unfold OpenedAt
  rw [since_cons]
  constructor
  · rintro (⟨⟨v', h⟩, -⟩ | ⟨hne, h⟩)
    · cases h
    · refine ⟨?_, h⟩
      rintro rfl
      exact hne v rfl
  · rintro ⟨hne, h⟩
    refine Or.inr ⟨fun v' e => ?_, h⟩
    cases e
    exact hne rfl

theorem current_wrote : Current key value (.wrote k v :: past) ↔
    (key = k ∧ value = v) ∨ (key ≠ k ∧ Current key value past) := by
  unfold Current
  rw [since_cons]
  constructor
  · rintro (h | ⟨hne, h⟩)
    · cases h
      exact Or.inl ⟨rfl, rfl⟩
    · refine Or.inr ⟨?_, h⟩
      rintro rfl
      exact hne v rfl
  · rintro (⟨rfl, rfl⟩ | ⟨hne, h⟩)
    · exact Or.inl rfl
    · refine Or.inr ⟨fun v' e => ?_, h⟩
      cases e
      exact hne rfl

theorem current_took : Current key value (.took k v :: past) ↔ Current key value past := by
  unfold Current
  rw [since_cons]
  constructor
  · rintro (h | ⟨-, h⟩)
    · cases h
    · exact h
  · exact fun h => Or.inr ⟨fun _ e => (nomatch e), h⟩

theorem seen_wrote : Seen key value (.wrote k v :: past) ↔ key ≠ k ∧ Seen key value past := by
  unfold Seen
  rw [since_cons]
  constructor
  · rintro (h | ⟨hne, h⟩)
    · cases h
    · refine ⟨?_, h⟩
      rintro rfl
      exact (hne v).1 rfl
  · rintro ⟨hne, h⟩
    refine Or.inr ⟨fun v' => ⟨fun e => ?_, fun e => (nomatch e)⟩, h⟩
    cases e
    exact hne rfl

theorem seen_took : Seen key value (.took k v :: past) ↔
    (key = k ∧ value = v) ∨ (key ≠ k ∧ Seen key value past) := by
  unfold Seen
  rw [since_cons]
  constructor
  · rintro (h | ⟨hne, h⟩)
    · cases h
      exact Or.inl ⟨rfl, rfl⟩
    · refine Or.inr ⟨?_, h⟩
      rintro rfl
      exact (hne v).2 rfl
  · rintro (⟨rfl, rfl⟩ | ⟨hne, h⟩)
    · exact Or.inl rfl
    · refine Or.inr ⟨fun v' => ⟨fun e => (nomatch e), fun e => ?_⟩, h⟩
      cases e
      exact hne rfl

theorem OpenedAt.untaken (h : OpenedAt key n past) : Untaken key past := by
  obtain ⟨later, d, earlier, rfl, ⟨hd, -⟩, hlater⟩ := h
  exact ⟨later, d, earlier, rfl, hd, hlater⟩

theorem OpenedAt.unique {m : Nat} (h : OpenedAt key n past) (h' : OpenedAt key m past) :
    n = m := by
  induction past with
  | nil => exact absurd h not_since_nil
  | cons d rest ih =>
    cases d with
    | wrote k v =>
      rcases openedAt_wrote.1 h with ⟨-, hopen, hn⟩ | h
      · rcases openedAt_wrote.1 h' with ⟨-, -, hm⟩ | h'
        · exact hn.symm.trans hm
        · exact absurd h'.untaken hopen
      · rcases openedAt_wrote.1 h' with ⟨-, hopen, -⟩ | h'
        · exact absurd h.untaken hopen
        · exact ih h h'
    | took k v => exact ih (openedAt_took.1 h).2 (openedAt_took.1 h').2

/-! ### The past by itself

Nothing of a store is in these: they relate the notions to each other, for any list of deeds. -/

/-- What was written has a last value. -/
theorem Untaken.exists_current (h : Untaken key past) : ∃ value, Current key value past := by
  induction past with
  | nil => exact absurd h not_since_nil
  | cons d rest ih =>
    cases d with
    | wrote k v =>
      by_cases hkey : key = k
      · exact ⟨v, current_wrote.2 (Or.inl ⟨hkey, rfl⟩)⟩
      · obtain ⟨value, hvalue⟩ := ih ((untaken_wrote.1 h).resolve_left hkey)
        exact ⟨value, current_wrote.2 (Or.inr ⟨hkey, hvalue⟩)⟩
    | took k v =>
      obtain ⟨value, hvalue⟩ := ih (untaken_took.1 h).2
      exact ⟨value, current_took.2 hvalue⟩

/-- A parameter is opened before the present, -/
theorem OpenedAt.lt_length (h : OpenedAt key n past) : n < past.length := by
  obtain ⟨later, d, earlier, rfl, ⟨-, -, hn⟩, -⟩ := h
  rw [List.length_append, List.length_cons]
  omega

/-- and every parameter not taken was opened at some time. -/
theorem Untaken.exists_openedAt (h : Untaken key past) : ∃ n, OpenedAt key n past := by
  induction past with
  | nil => exact absurd h not_since_nil
  | cons d rest ih =>
    cases d with
    | wrote k v =>
      by_cases hrest : Untaken key rest
      · obtain ⟨n, hn⟩ := ih hrest
        exact ⟨n, openedAt_wrote.2 (Or.inr hn)⟩
      · rcases untaken_wrote.1 h with hkey | h
        · exact ⟨rest.length, openedAt_wrote.2 (Or.inl ⟨hkey, hrest, rfl⟩)⟩
        · exact absurd h hrest
    | took k v =>
      obtain ⟨hne, hrest⟩ := untaken_took.1 h
      obtain ⟨n, hn⟩ := ih hrest
      exact ⟨n, openedAt_took.2 ⟨hne, hn⟩⟩

end Past

/-! ## Store and deeds in step

`Tracks` has the invariant, with a field for each of the notions. A write puts its parameter at the
end of the pending ones if it is not among them, and there it was opened later than all others; if
it is among them it stays where it is, and only its value changes. To take a write removes the
first, which is not among the rest: it would have been opened before itself. -/

/-- The pending writes and the values of a store are those that the deeds left. -/
structure Tracks (s : ParamStore) (past : List Deed) : Prop where
  pending : ∀ key, key ∈ s.pending ↔ Untaken key past
  ordered : s.pending.Pairwise fun a b =>
    ∀ m n, OpenedAt a m past → OpenedAt b n past → m < n
  current : ∀ key value, Current key value past → s.get key.1 key.2 = some value
  seen : ∀ key value, Current key value past → ¬ Untaken key past → Seen key value past

/-- What a change does to a store, and the deed that it is. -/
inductive StoreStep (s : ParamStore) (past : List Deed) : ParamStore → List Deed → Prop where
  /-- Nothing at all. -/
  | same : StoreStep s past s past
  /-- Another store takes its place. -/
  | fresh {s' : ParamStore} (h : s'.pending = []) : StoreStep s past s' []
  /-- A parameter gets a value, and no other does. -/
  | wrote {s' : ParamStore} {key : UInt16 × UInt16} {value : Bytes}
    (hpending : s'.pending = ParamStore.markPending s.pending key)
    (hself : s'.get key.1 key.2 = some value)
    (hother : ∀ i j, (i, j) ≠ key → s'.get i j = s.get i j) :
    StoreStep s past s' (.wrote key value :: past)
  /-- The first of the pending writes is taken, with the value of its parameter. -/
  | took {key : UInt16 × UInt16} {rest : List (UInt16 × UInt16)} {value : Bytes}
    (hpending : s.pending = key :: rest) (hvalue : s.get key.1 key.2 = some value) :
    StoreStep s past { s with pending := rest } (.took key value :: past)

theorem tracks_nil {s : ParamStore} (h : s.pending = []) : Tracks s [] := by
  refine ⟨fun key => ?_, ?_, fun _ _ hc => absurd hc not_since_nil,
    fun _ _ hc => absurd hc not_since_nil⟩
  · rw [h]
    exact ⟨fun hk => absurd hk List.not_mem_nil, fun hu => absurd hu not_since_nil⟩
  · rw [h]
    exact List.Pairwise.nil

/-- **A write keeps store and deeds in step.** -/
theorem Tracks.wrote {s s' : ParamStore} {past : List Deed} {key : UInt16 × UInt16} {value : Bytes}
    (h : Tracks s past) (hpending : s'.pending = ParamStore.markPending s.pending key)
    (hself : s'.get key.1 key.2 = some value)
    (hother : ∀ i j, (i, j) ≠ key → s'.get i j = s.get i j) :
    Tracks s' (.wrote key value :: past) := by
  refine ⟨fun k => ?_, ?_, fun k v hc => ?_, fun k v hc hu => ?_⟩
  · rw [hpending, ParamStore.mem_markPending, untaken_wrote, h.pending, or_comm]
  · rw [hpending]
    unfold ParamStore.markPending
    -- whatever was pending was opened before, and the deed opens at most this parameter
    have hold : s.pending.Pairwise fun a b => ∀ m n, OpenedAt a m (.wrote key value :: past) →
        OpenedAt b n (.wrote key value :: past) → m < n := by
      refine h.ordered.imp_of_mem ?_
      intro a b ha hb hab m n hm hn
      rcases openedAt_wrote.1 hm with ⟨rfl, hopen, -⟩ | hm
      · exact absurd ((h.pending _).1 ha) hopen
      · rcases openedAt_wrote.1 hn with ⟨rfl, hopen, -⟩ | hn
        · exact absurd ((h.pending _).1 hb) hopen
        · exact hab m n hm hn
    split
    · exact hold
    · next hnew =>
      rw [List.pairwise_append]
      refine ⟨hold, List.pairwise_singleton _ _, fun a ha b hb m n hm hn => ?_⟩
      rw [List.mem_singleton] at hb
      subst hb
      rcases openedAt_wrote.1 hm with ⟨rfl, -, -⟩ | hm
      · exact absurd ha hnew
      · rcases openedAt_wrote.1 hn with ⟨-, -, rfl⟩ | hn
        · exact hm.lt_length
        · exact absurd ((h.pending b).2 hn.untaken) hnew
  · rcases current_wrote.1 hc with ⟨rfl, rfl⟩ | ⟨hne, hc⟩
    · exact hself
    · rw [hother k.1 k.2 hne]
      exact h.current k v hc
  · rw [untaken_wrote] at hu
    rcases current_wrote.1 hc with ⟨rfl, -⟩ | ⟨hne, hc⟩
    · exact absurd (Or.inl rfl) hu
    · exact seen_wrote.2 ⟨hne, h.seen k v hc fun h' => hu (Or.inr h')⟩

/-- **Taking a write keeps store and deeds in step.** -/
theorem Tracks.took {s : ParamStore} {past : List Deed} {key : UInt16 × UInt16}
    {rest : List (UInt16 × UInt16)} {value : Bytes} (h : Tracks s past)
    (hnodup : s.pending.Nodup) (hpending : s.pending = key :: rest)
    (hvalue : s.get key.1 key.2 = some value) :
    Tracks { s with pending := rest } (.took key value :: past) := by
  -- the write that is taken is pending once, so it is not among the rest
  rw [hpending, List.nodup_cons] at hnodup
  refine ⟨fun k => ?_, ?_, fun k v hc => ?_, fun k v hc hu => ?_⟩
  · have hk := h.pending k
    rw [hpending, List.mem_cons] at hk
    rw [untaken_took, ← hk]
    constructor
    · intro hrest
      refine ⟨?_, Or.inr hrest⟩
      rintro rfl
      exact hnodup.1 hrest
    · rintro ⟨hne, rfl | hrest⟩
      · exact absurd rfl hne
      · exact hrest
  · have hordered := h.ordered
    rw [hpending, List.pairwise_cons] at hordered
    refine hordered.2.imp fun hab m n hm hn => ?_
    exact hab m n (openedAt_took.1 hm).2 (openedAt_took.1 hn).2
  · exact h.current k v (current_took.1 hc)
  · rw [current_took] at hc
    rw [untaken_took, not_and] at hu
    rw [seen_took]
    by_cases hk : k = key
    · subst hk
      have hcur := h.current k v hc
      rw [hvalue, Option.some_inj] at hcur
      exact Or.inl ⟨rfl, hcur.symm⟩
    · exact Or.inr ⟨hk, h.seen k v hc (hu hk)⟩

/-- **Every step keeps store and deeds in step.** -/
theorem Tracks.step {s s' : ParamStore} {past past' : List Deed} (h : Tracks s past)
    (hnodup : s.pending.Nodup) (hstep : StoreStep s past s' past') : Tracks s' past' := by
  cases hstep with
  | same => exact h
  | fresh hnone => exact tracks_nil hnone
  | wrote hpending hself hother => exact h.wrote hpending hself hother
  | took hpending hvalue => exact h.took hnodup hpending hvalue

/-! ## The deeds of a run

`Run.deeds` goes beside the run and starts anew with each device. That taking gives a value at all
depends on the configuration being coherent: a parameter that is pending exists and has a range in
the memory. Then the state of any run is asked what the host can get from it. -/

/-- The deeds since the device was last put in place, after one more change. -/
def Change.deeds (g : Gateway) : Change → List Deed → List Deed
  | .install d, past =>
    match g.installDevice d with
    | .error _ => past
    | .ok _ => []
  | .writeParam slot param bits data, past =>
    match g.writeParam slot param bits data, g.config.device.param slot param with
    | .ok _, .ok p => .wrote (slot, param) (data.extract 0 p.byteLength.toNat) :: past
    | _, _ => past
  | .takeWrite, past =>
    match g.takeWrite.1 with
    | none => past
    | some w => .took (w.slot, w.param) w.data :: past
  | _, past => past

/-- What a run did to the parameters since it began or its device was last replaced: successful
writes with the bytes they stored, and the writes taken, latest first. -/
def Run.deeds (r : Run) : List Deed := r.track (fun g c => c.deeds g) []

/-- Taking a write when none is pending gives none. -/
theorem ParamStore.takeWrite_of_nil {s : ParamStore} (h : s.pending = []) :
    s.takeWrite = (none, s) := by
  unfold takeWrite
  rw [h]
  obtain ⟨memory, pending⟩ := s
  cases h
  rfl

/-- Taking a write gives the first pending one, if its parameter has a value. -/
theorem ParamStore.takeWrite_of_cons {s : ParamStore} {key : UInt16 × UInt16}
    {rest : List (UInt16 × UInt16)} {value : Bytes} (h : s.pending = key :: rest)
    (hvalue : s.get key.1 key.2 = some value) :
    s.takeWrite = (some ⟨key.1, key.2, value⟩, { s with pending := rest }) := by
  unfold takeWrite
  rw [h]
  obtain ⟨slot, param⟩ := key
  unfold firstPending
  rw [hvalue]

theorem Gateway.takeWrite_fst (g : Gateway) : g.takeWrite.1 = g.config.params.takeWrite.1 := by
  unfold takeWrite
  generalize g.config.params.takeWrite = result
  obtain ⟨_ | w, params⟩ := result <;> rfl

/-- In a coherent configuration, every pending write has the value of its parameter. -/
theorem Configuration.Coherent.exists_value {k : Configuration} (h : k.Coherent)
    {key : UInt16 × UInt16} (hkey : key ∈ k.params.pending) :
    ∃ p value, k.device.param key.1 key.2 = .ok p ∧ k.params.get key.1 key.2 = some value ∧
      value.size = p.byteLength.toNat := by
  obtain ⟨p, hp⟩ := h.pending key hkey
  obtain ⟨value, hvalue, hsize⟩ := h.memory.get_eq_some hp
  exact ⟨p, value, hp, hvalue, hsize⟩

/-- **A change is a step of the parameter store, and its deed.** -/
theorem Gateway.storeStep {g : Gateway} (hk : g.config.Coherent) (c : Change) (past : List Deed) :
    StoreStep g.config.params past (g.apply c).config.params (c.deeds g past) := by
  cases hr : g.attempt c with
  | error e =>
    -- a change that is refused is no deed
    have hdeeds : c.deeds g past = past := by
      cases c with
      | install d =>
        rw [Change.deeds, show g.installDevice d = .error e from hr]
      | writeParam slot param bits data =>
        rw [Change.deeds, show g.writeParam slot param bits data = .error e from hr]
      | takeWrite => cases hr
      | _ => rfl
    rw [apply_of_error hr, hdeeds]
    exact .same
  | ok g' =>
    obtain ⟨-, hconf⟩ := configures_of_attempt hr
    rw [apply_of_ok hr]
    generalize g'.config = k at hconf
    cases hconf with
    | untouched hc =>
      have hdeeds : c.deeds g past = past := by
        cases c <;> first | rfl | cases hc
      rw [hdeeds]
      exact .same
    | @installed d k hd =>
      have hdeeds : (Change.install d).deeds g past = [] := by
        rw [Change.deeds, show g.installDevice d = .ok g' from hr]
      rw [hdeeds]
      exact .fresh (Configuration.pending_ofDevice hd)
    | alarmAdded _ | alarmRemoved _ | signalSet _ | valueSet _ | statusSet _ | unpacked _ =>
      exact .same
    | @written slot param bits data params out hw =>
      obtain ⟨p, hp, -, -, -, hpending, hself, hother⟩ := hk.memory.write_spec hw
      have hdeeds : (Change.writeParam slot param bits data).deeds g past =
          .wrote (slot, param) (data.extract 0 p.byteLength.toNat) :: past := by
        rw [Change.deeds, show g.writeParam slot param bits data = .ok g' from hr, hp]
      rw [hdeeds]
      exact .wrote hpending hself hother
    | taken =>
      rw [Change.deeds, g.takeWrite_fst]
      cases hpending : g.config.params.pending with
      | nil =>
        rw [ParamStore.takeWrite_of_nil hpending]
        exact .same
      | cons key rest =>
        obtain ⟨p, value, -, hvalue, -⟩ :=
          hk.exists_value (hpending ▸ List.mem_cons_self : key ∈ g.config.params.pending)
        rw [ParamStore.takeWrite_of_cons hpending hvalue]
        exact .took hpending hvalue

namespace Run

/-- **The store of a run and its deeds are in step.** -/
theorem tracks (r : Run) : Tracks r.state.config.params r.deeds := by
  induction r using Run.induct with
  | hmade h => exact tracks_nil (Configuration.pending_ofDevice (Gateway.fixed_of_make h).2)
  | hnext r c ih =>
    have hstep := Gateway.storeStep r.coherent c r.deeds
    rw [← state_next] at hstep
    unfold deeds at hstep ih ⊢
    rw [track_next]
    exact ih.step r.coherent.nodup hstep

/-! ### Taking writes

From the invariant to what the host sees. Each fact is about the state of a run and the deeds that
led there. -/

/-- What is taken from a gateway: nothing if nothing is pending, else the first that is, with the
value of its parameter. -/
theorem takeWrite_cases (r : Run) :
    (r.state.config.params.pending = [] ∧ r.state.takeWrite.1 = none) ∨
      ∃ key rest p value, r.state.config.params.pending = key :: rest ∧
        r.state.takeWrite.1 = some ⟨key.1, key.2, value⟩ ∧
        r.state.config.device.param key.1 key.2 = .ok p ∧
        r.state.config.params.get key.1 key.2 = some value ∧ value.size = p.byteLength.toNat := by
  rw [Gateway.takeWrite_fst]
  cases hpending : r.state.config.params.pending with
  | nil =>
    rw [ParamStore.takeWrite_of_nil hpending]
    exact Or.inl ⟨rfl, rfl⟩
  | cons key rest =>
    obtain ⟨p, value, hp, hvalue, hsize⟩ :=
      r.coherent.exists_value (hpending ▸ List.mem_cons_self : key ∈ _)
    rw [ParamStore.takeWrite_of_cons hpending hvalue]
    exact Or.inr ⟨key, rest, p, value, rfl, rfl, hp, hvalue, hsize⟩

/-- Taking a write leaves the pending ones behind the first. -/
theorem pending_next_takeWrite {r : Run} {key : UInt16 × UInt16} {rest : List (UInt16 × UInt16)}
    (h : r.state.config.params.pending = key :: rest) :
    (r.next .takeWrite).state.config.params.pending = rest := by
  obtain ⟨p, value, -, hvalue, -⟩ :=
    r.coherent.exists_value (h ▸ List.mem_cons_self : key ∈ _)
  obtain ⟨outbox, htake⟩ := r.state.takeWrite_snd
  rw [state_next, show r.state.apply .takeWrite = r.state.takeWrite.2 from rfl, htake]
  dsimp only
  rw [ParamStore.takeWrite_of_cons h hvalue]

/-- Who keeps taking writes comes to an end. -/
theorem exists_takeWrite_eq_none (r : Run) :
    ∃ n, (r.andThen (List.replicate n .takeWrite)).state.takeWrite.1 = none := by
  -- each write that is taken makes the list of pending ones shorter
  generalize hpending : r.state.config.params.pending = pending
  induction pending generalizing r with
  | nil =>
    refine ⟨0, ?_⟩
    rw [state_andThen, Gateway.takeWrite_fst]
    exact congrArg Prod.fst (ParamStore.takeWrite_of_nil hpending)
  | cons key rest ih =>
    obtain ⟨n, hn⟩ := ih (r.next .takeWrite) (pending_next_takeWrite hpending)
    refine ⟨n + 1, ?_⟩
    rw [state_andThen, state_next] at *
    exact hn

/-- Nothing is taken exactly if every parameter that was written has been taken since. -/
theorem takeWrite_eq_none_iff (r : Run) :
    r.state.takeWrite.1 = none ↔ ∀ key, ¬ Untaken key r.deeds := by
  have hmem := r.tracks.pending
  rcases r.takeWrite_cases with ⟨hpending, htake⟩ | ⟨key, rest, p, value, hpending, htake, -⟩
  · rw [htake]
    refine ⟨fun _ key hu => ?_, fun _ => rfl⟩
    have hkey := (hmem key).2 hu
    rw [hpending] at hkey
    cases hkey
  · rw [htake]
    refine ⟨fun e => (nomatch e), fun hall => ?_⟩
    exact absurd ((hmem key).1 (hpending ▸ List.mem_cons_self)) (hall key)

/-- The first of the pending parameters was opened before all others. -/
theorem openedAt_first {r : Run} {key : UInt16 × UInt16} {rest : List (UInt16 × UInt16)}
    (h : r.state.config.params.pending = key :: rest) :
    ∃ n, OpenedAt key n r.deeds ∧ ∀ other m, OpenedAt other m r.deeds → n ≤ m := by
  have hmem := r.tracks.pending
  have hordered := r.tracks.ordered
  rw [h, List.pairwise_cons] at hordered
  obtain ⟨n, hn⟩ := ((hmem key).1 (h ▸ List.mem_cons_self)).exists_openedAt
  refine ⟨n, hn, fun other m hm => ?_⟩
  have hother := (hmem other).2 hm.untaken
  rw [h, List.mem_cons] at hother
  rcases hother with rfl | hrest
  · exact Nat.le_of_eq (hn.unique hm)
  · exact Nat.le_of_lt (hordered.1 other hrest n m hn hm)

/-- The value of a pending parameter is the one that was written last. -/
theorem current_of_mem_pending {r : Run} {key : UInt16 × UInt16} {value : Bytes}
    (h : key ∈ r.state.config.params.pending)
    (hvalue : r.state.config.params.get key.1 key.2 = some value) :
    Current key value r.deeds := by
  obtain ⟨v, hv⟩ := ((r.tracks.pending key).1 h).exists_current
  have hget := r.tracks.current key v hv
  rw [hvalue, Option.some_inj] at hget
  rw [hget]
  exact hv

/-- What is no deed leaves the store as it is. -/
theorem params_next_of_deeds_eq {r : Run} {c : Change} (h : ∀ past, c.deeds r.state past = past) :
    (r.next c).state.config.params = r.state.config.params := by
  have hstep := Gateway.storeStep r.coherent c [.took (0, 0) #[]]
  rw [h, ← state_next] at hstep
  -- no other step leaves the deeds as they are
  generalize (r.next c).state.config.params = s' at hstep
  cases hstep
  rfl

/-- **No parameter write is lost or reported twice.** In every state of a run:

* a parameter is pending exactly if it was written and not taken since;
* nothing is taken exactly if nothing is pending;
* what is taken is the parameter that became pending first, with the value last written, which has
  the length of the parameter;
* only successful writes, taken writes and new devices touch any of this, so no refused call, no
  message dropped or received does;
* taking writes comes to an end, and then every parameter that was written has been seen with its
  current value. -/
theorem writes_taken_once_in_order (r : Run) :
    (∀ key, key ∈ r.state.config.params.pending ↔ Untaken key r.deeds) ∧
    (r.state.takeWrite.1 = none ↔ ∀ key, ¬ Untaken key r.deeds) ∧
    (∀ w, r.state.takeWrite.1 = some w →
      (∃ n, OpenedAt (w.slot, w.param) n r.deeds ∧ ∀ key m, OpenedAt key m r.deeds → n ≤ m) ∧
      Current (w.slot, w.param) w.data r.deeds ∧
      ∃ p, r.state.config.device.param w.slot w.param = .ok p ∧
        w.data.size = p.byteLength.toNat) ∧
    (∀ c : Change, (∀ past, c.deeds r.state past = past) →
      (r.next c).state.config.params = r.state.config.params) ∧
    (∃ n, (r.andThen (List.replicate n .takeWrite)).state.takeWrite.1 = none) ∧
    (∀ key value, Current key value r.deeds →
      r.state.config.params.get key.1 key.2 = some value) ∧
    (r.state.takeWrite.1 = none →
      ∀ key value, Current key value r.deeds → Seen key value r.deeds) := by
  refine ⟨r.tracks.pending, r.takeWrite_eq_none_iff, ?_, fun c hc => params_next_of_deeds_eq hc,
    r.exists_takeWrite_eq_none, r.tracks.current, ?_⟩
  · intro w hw
    rcases r.takeWrite_cases with ⟨-, htake⟩ |
      ⟨key, rest, p, value, hpending, htake, hp, hvalue, hsize⟩
    · rw [htake] at hw
      cases hw
    · rw [htake] at hw
      cases hw
      have hmem : key ∈ r.state.config.params.pending := hpending ▸ List.mem_cons_self
      exact ⟨openedAt_first hpending, current_of_mem_pending hmem hvalue, p, hp, hsize⟩
  · intro htake key value hc
    exact r.tracks.seen key value hc (r.takeWrite_eq_none_iff.1 htake key)

end Run

end Fieldbus
