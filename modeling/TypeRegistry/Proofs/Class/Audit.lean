import TypeRegistry.Proofs.Class.Independence
import TypeRegistry.Proofs.Class.Stability

/-!
# The log of a block

What the calls on a block log is a full account of what was accepted. It begins with the making of
the block and ends, once the block is sealed, with the changes that were refused since. In between
each base is logged with its text, and the length of the resolution order can be worked out from the
log alone, but for one thing: the head of an order that is extended entry by entry is not logged.

A length is logged as the sum of the two fields that keep an order, while the length that is read
looks at the flag alone where no order is started. They agree because every block of a reachable
heap is ordered.

## Main definitions and statements

* `loggedOn`: what the calls on a block logged.
* `replayedLength`: the length of the resolution order that a log tells.
* `ClassBlock.Told`, `ClassBlock.Audited`: a log tells of a block, and is its account.
* `Store.LogStep`, `Heap.Sound.logStep`: what an action can do to a block and to its log.
* `Store.LogStep.length_eq`: a length that is logged is that of the order right after the step.
* `Heap.log_audits_changes`: the log of a block is its account after every run.
-/

namespace TypeRegistry

/-- The block whose call was recorded: the one it was made on, or the one that it made. A call that
was refused to make a class has none. -/
def Record.source? (r : Record) : Option ClassId :=
  r.call.target?.or r.subject?

/-- What the calls on the block `id` logged, the one that made it included, oldest first. -/
def loggedOn (id : ClassId) (past : List Record) : List Event :=
  (past.filter fun r => r.source? = some id).flatMap (·.events)

/-- A log goes on with what the later calls logged. -/
@[simp]
theorem loggedOn_append (id : ClassId) (past later : List Record) :
    loggedOn id (past ++ later) = loggedOn id past ++ loggedOn id later := by
  simp [loggedOn]

/-- A call logs for its own block, and nothing for another. -/
theorem loggedOn_singleton (id : ClassId) (r : Record) :
    loggedOn id [r] = if r.source? = some id then r.events else [] := by
  by_cases hr : r.source? = some id <;> simp [loggedOn, hr]

namespace Record

variable {call : Call} {outcome : Outcome (Option ClassRef)}

/-- A call on a block is recorded for it, whatever came of it. -/
theorem source?_of_receiver {c : ClassRef} (hc : call.receiver? = some c) :
    (call.record outcome).source? = some c.block := by
  simp [source?, Call.record, Call.target?, hc]

/-- A call that makes a block is recorded for the new one. -/
theorem source?_of_made {id : ClassId} (hc : call.receiver? = none)
    (hresult : outcome.result = .ok (some (.ofBlock id))) :
    (call.record outcome).source? = some id := by
  simp [source?, subject?, Call.record, Call.target?, hc, hresult, ClassRef.ofBlock]

/-- A class that was refused has no block for which this could be recorded. -/
theorem source?_of_refused {e : ClassError} (hc : call.receiver? = none)
    (hresult : outcome.result = .error e) : (call.record outcome).source? = none := by
  simp [source?, subject?, Call.record, Call.target?, hc, hresult]

end Record

/-! ### What events tell -/

namespace Event

/-- The text of the base that an event tells of. -/
def base? : Event → Option String
  | baseAdded _ base => some base
  | _ => none

/-- The length of a resolution order that an event carries. -/
def length? : Event → Option Nat
  | mroSet _ length | sealedWith _ length => some length
  | _ => none

/-- The length of the resolution order after an event, when it was `length` before. An entry that is
added comes after the head at least, which is not logged when it starts an order. -/
def replay (length : Nat) : Event → Nat
  | mroSet _ newLength => newLength
  | ancestorAdded .. => max 1 length + 1
  | _ => length

end Event

/-- The length of the resolution order that a log tells. -/
def replayedLength (log : List Event) : Nat :=
  log.foldl Event.replay 0

/-- A log is replayed piece by piece. -/
theorem replayedLength_append (log later : List Event) :
    replayedLength (log ++ later) = later.foldl Event.replay (replayedLength log) :=
  List.foldl_append

/-- A resolution order of `length` entries has the length that was told, or it is the head alone
and nothing was told. -/
def LengthTold (told length : Nat) : Prop :=
  length = told ∨ told = 0 ∧ length = 1

/-- The head that starts an order need not be told. -/
theorem LengthTold.start {told : Nat} (htold : LengthTold told 0) : LengthTold told 1 := by
  unfold LengthTold at *
  omega

/-- An entry is told that is added to an order with a head. -/
theorem LengthTold.extend {told length : Nat} (htold : LengthTold told length)
    (hlength : 0 < length) : LengthTold (max 1 told + 1) (length + 1) := by
  unfold LengthTold at *
  omega

/-- The log tells how the block was made and what it was given, with `render` for the texts of its
bases. -/
structure ClassBlock.Told (render : Ty → String) (b : ClassBlock) (log : List Event) : Prop where
  /-- The log begins with the making of the block, and this is logged once. -/
  created : ∃ later, log = .created b.name :: later ∧ ∀ name, .created name ∉ later
  /-- The bases that were logged are those of the block, in their order. -/
  bases : log.filterMap Event.base? = b.bases.map render
  mroLength : LengthTold (replayedLength log) b.mroLength

/-- The log is the account of the block: it tells of it, its sealing included. -/
structure ClassBlock.Audited (render : Ty → String) (b : ClassBlock) (log : List Event) : Prop
    extends b.Told render log where
  /-- No sealing of an open block was logged. -/
  sealedWith_not_mem : b.isSealed = false → ∀ name length, .sealedWith name length ∉ log
  /-- The sealing of a sealed block was logged once, and nothing but refusals after it. -/
  sealedWith_once : b.isSealed = true → ∃ before length after,
    log = before ++ .sealedWith b.name length :: after ∧
      (∀ name length, .sealedWith name length ∉ before) ∧
        ∀ event ∈ after, event = .mutationRejected b.name

section Account

variable {render render' : Ty → String} {b b' : ClassBlock} {log events : List Event} {s : Store}
  {call : Call} {id : ClassId}

/-- A log goes on telling of a block when the bases and the length that are logged are those that
the block gets. -/
theorem ClassBlock.Told.append (hb : b.Told render log) (hname : b'.name = b.name)
    (hcreated : ∀ name, .created name ∉ events)
    (hbases : b'.bases.map render = b.bases.map render ++ events.filterMap Event.base?)
    (hlength : ∀ told, LengthTold told b.mroLength →
      LengthTold (events.foldl Event.replay told) b'.mroLength) :
    b'.Told render (log ++ events) := by
  obtain ⟨later, hlog, hlater⟩ := hb.created
  -- The making stays at the front and is not logged again.
  refine ⟨⟨later ++ events, ?_, ?_⟩, ?_, ?_⟩
  · rw [hlog, hname, List.cons_append]
  · intro name hmem
    rcases List.mem_append.1 hmem with hmem | hmem
    · exact hlater name hmem
    · exact hcreated name hmem
  · rw [List.filterMap_append, hb.bases, hbases]
  · rw [replayedLength_append]
    exact hlength _ hb.mroLength

namespace ClassBlock.Audited

/-- The texts of the bases are all that the account takes of `render`. -/
theorem render_congr (hb : b.Audited render log)
    (hrender : ∀ base ∈ b.bases, render' base = render base) : b.Audited render' log := by
  refine { hb with bases := ?_ }
  rw [hb.bases]
  exact (List.map_congr_left hrender).symm

/-- A refusal that is logged after the sealing keeps the account. -/
theorem rejected (hb : b.Audited render log) (hsealed : b.isSealed = true) :
    b.Audited render (log ++ [.mutationRejected b.name]) := by
  have htold : b.Told render (log ++ [.mutationRejected b.name]) :=
    hb.toTold.append rfl (by simp) (List.append_nil _).symm fun _ htold => htold
  refine ⟨htold, fun hopen => ?_, fun _ => ?_⟩
  · rw [hsealed] at hopen
    cases hopen
  · obtain ⟨before, length, after, hlog, hbefore, hafter⟩ := hb.sealedWith_once hsealed
    refine ⟨before, length, after ++ [.mutationRejected b.name], ?_, hbefore, ?_⟩
    · rw [hlog, List.append_assoc, List.cons_append]
    · intro event hevent
      rcases List.mem_append.1 hevent with hevent | hevent
      · exact hafter event hevent
      · exact List.mem_singleton.1 hevent

/-- A change that leaves the block open keeps the account when the log goes on telling of it. -/
theorem changed (hb : b.Audited render log) (hopen : b.isSealed = false)
    (hopen' : b'.isSealed = false) (htold : b'.Told render (log ++ events))
    (hevents : ∀ name length, .sealedWith name length ∉ events) :
    b'.Audited render (log ++ events) := by
  refine ⟨htold, fun _ name length hmem => ?_, fun hsealed => ?_⟩
  · rcases List.mem_append.1 hmem with hmem | hmem
    · exact hb.sealedWith_not_mem hopen name length hmem
    · exact hevents name length hmem
  · rw [hopen'] at hsealed
    cases hsealed

/-- Sealing an open block, once it is logged, keeps the account. -/
theorem sealBlock (hb : b.Audited render log) (hopen : b.isSealed = false) (length : Nat) :
    { b with isSealed := true }.Audited render (log ++ [Event.sealedWith b.name length]) := by
  have htold : { b with isSealed := true }.Told render (log ++ [Event.sealedWith b.name length]) :=
    hb.toTold.append rfl (by simp) (List.append_nil _).symm fun _ htold => htold
  exact ⟨htold, nofun, fun _ => ⟨log, length, [], rfl, hb.sealedWith_not_mem hopen, nofun⟩⟩

end ClassBlock.Audited

/-- What the making of a block logs is its account. -/
theorem Birth.audited (hbirth : Birth id call b) :
    b.Audited s.render (s.account default b call) := by
  -- The first event is the making, and no sealing is among what is logged.
  cases hbirth with
  | @plain name table call hcall =>
      have haccount : s.account default { name, table } call = [.created name] := by
        rcases hcall with rfl | rfl <;> rfl
      rw [haccount]
      exact ⟨⟨⟨[], rfl, fun _ => List.not_mem_nil⟩, rfl, .inl rfl⟩, by simp, by simp⟩
  | @ordered name table ancestors _ hne =>
      obtain ⟨first, rest, rfl⟩ := List.exists_cons_of_ne_nil hne
      exact ⟨⟨⟨_, rfl, by simp⟩, rfl, .inl rfl⟩, by simp [Store.account], by simp⟩

/-- An accepted call keeps the account of its block by what it logs. -/
theorem Effect.audited (hordered : b.Ordered id) (hb : b.Audited s.render log)
    (heffect : Effect b call b') : b'.Audited s.render (log ++ s.account b b' call) := by
  cases heffect with
  | clear hopen | reorder hopen =>
      -- A replaced order is logged with its length, whatever was told before.
      refine hb.changed hopen hopen (hb.toTold.append rfl ?_ (List.append_nil _).symm ?_) ?_
      · simp [Store.account]
      · exact fun _ _ => .inl rfl
      · simp [Store.account]
  | @start c entry hopen hfresh =>
      -- The head comes first, when the order was empty and nothing was told of it.
      have hbefore : b.mroLength = 0 := by simp [ClassBlock.mroLength, hfresh]
      have hafter : { b with linearized := true }.mroLength = 1 := by
        simp [ClassBlock.mroLength, hordered.ancestors_eq_nil hfresh]
      have hnothing : s.account b { b with linearized := true } (.extendMro c entry) = [] := by
        simp [Store.account, hfresh]
      rw [hnothing]
      refine hb.changed hopen hopen
        (hb.toTold.append rfl (by simp) (List.append_nil _).symm ?_) (by simp)
      intro told htold
      rw [hbefore] at htold
      rw [hafter]
      exact htold.start
  | @extend c entry hopen hstarted =>
      -- There is a head at least, and it counts as one where it was not told.
      have hbefore : 0 < b.mroLength := by simp [ClassBlock.mroLength, hstarted]
      have hafter :
          { b with ancestors := b.ancestors ++ [entry.block] }.mroLength = b.mroLength + 1 := by
        simp [ClassBlock.mroLength, hstarted]
      have hone : s.account b { b with ancestors := b.ancestors ++ [entry.block] }
          (.extendMro c entry) = [.ancestorAdded b.name (s.className entry.block)] := by
        simp [Store.account, hstarted]
      rw [hone]
      refine hb.changed hopen hopen
        (hb.toTold.append rfl (by simp) (List.append_nil _).symm ?_) (by simp)
      intro told htold
      rw [hafter]
      exact htold.extend hbefore
  | @addBase c base hopen =>
      refine hb.changed hopen hopen (hb.toTold.append rfl ?_ ?_ fun _ htold => htold) ?_
      · simp [Store.account]
      · exact List.map_append
      · simp [Store.account]
  | @sealBlock c =>
      cases hs : b.isSealed with
      | false =>
          have hone : s.account b { b with isSealed := true } (.sealClass c) =
              [.sealedWith b.name (b.ancestors.length + b.linearized.toNat)] := by
            simp [Store.account, hs]
          rw [hone]
          exact hb.sealBlock hs _
      | true =>
          -- The block was sealed before, and is sealed again without a word.
          have hsame : { b with isSealed := true } = b := by rw [← hs]
          have hnothing : s.account b b (.sealClass c) = [] := by simp [Store.account, hs]
          rw [hsame, hnothing, List.append_nil]
          exact hb

end Account

/-! ### Steps and runs -/

namespace Store

/-- What an action can do to the block `id` on the way from one store to another, and log of it. -/
inductive LogStep (s s' : Store) (id : ClassId) : List Event → Prop
  /-- The block stays as it is, without a word. -/
  | kept (hblock : s'.block id = s.block id) (hcontains : s'.Contains id ↔ s.Contains id) :
      LogStep s s' id []
  /-- A change of the block, which is sealed, is refused. -/
  | rejected (hblock : s'.block id = s.block id) (hcontains : s'.Contains id ↔ s.Contains id)
      (hsealed : s.isSealed id = true) : LogStep s s' id [.mutationRejected (s.className id)]
  /-- A call on the block is accepted. -/
  | changed {call : Call} {b : ClassBlock} (hbefore : s.Contains id) (hafter : s'.Contains id)
      (hblock : s'.block id = b) (heffect : Effect (s.block id) call b) :
      LogStep s s' id (s.account (s.block id) b call)
  /-- A call makes the block. -/
  | created {call : Call} {b : ClassBlock} (hnew : ¬s.Contains id) (hmade : s'.Contains id)
      (hblock : s'.block id = b) (hbirth : Birth id call b) :
      LogStep s s' id (s.account default b call)

variable {s s' : Store} {id : ClassId} {events log : List Event}

/-- The length that an accepted call logs is the sum of what is kept of the order it leaves: the
ancestors, and one more where the flag is up. -/
theorem length_of_mem_account {b b' : ClassBlock} {call : Call} {event : Event}
    (hevent : event ∈ s.account b b' call) {length : Nat} (hlength : event.length? = some length) :
    length = b'.ancestors.length + b'.linearized.toNat := by
  cases call with
  | createWithAncestors name table ancestors =>
      -- A class without ancestors logs no length.
      rcases ancestors with _ | ⟨first, rest⟩
      · simp_all [account, Event.length?]
      · rw [account, List.mem_pair] at hevent
        rcases hevent with rfl | rfl
        · cases hlength
        · exact (Option.some.inj hlength).symm
  | replaceMro =>
      rw [account, List.mem_singleton] at hevent
      subst hevent
      exact (Option.some.inj hlength).symm
  | create | addBase => simp_all [account, Event.length?]
  | extendMro =>
      rw [account] at hevent
      split at hevent <;> simp_all [Event.length?]
  | sealClass =>
      rw [account] at hevent
      split at hevent
      · cases hevent
      · rw [List.mem_singleton] at hevent
        subst hevent
        exact (Option.some.inj hlength).symm

/-- A length that is logged of a block is that of its order right after the step, when the block is
ordered then. -/
theorem LogStep.length_eq (hstep : LogStep s s' id events) (hordered : (s'.block id).Ordered id)
    {event : Event} (hevent : event ∈ events) {length : Nat}
    (hlength : event.length? = some length) : length = s'.mroLength id := by
  -- The length that is read asks for the flag first, the one that is logged adds it up.
  rw [mroLength, hordered.mroLength_eq]
  cases hstep with
  | kept => cases hevent
  | rejected =>
      rw [List.mem_singleton.1 hevent] at hlength
      cases hlength
  | changed _ _ hblock | created _ _ hblock =>
      rw [hblock]
      exact length_of_mem_account hevent hlength

/-- The log of a block is its account, and empty before the block is made. -/
structure Audits (s : Store) (id : ClassId) (log : List Event) : Prop where
  audited : s.Contains id → (s.block id).Audited s.render log
  eq_nil : ¬s.Contains id → log = []

/-- A step keeps the account of a block when it keeps the texts of its bases. -/
theorem LogStep.audits (hstep : LogStep s s' id events) (hordered : (s.block id).Ordered id)
    (hrender : ∀ base ∈ s'.bases id, s'.render base = s.render base) (hlog : s.Audits id log) :
    s'.Audits id (log ++ events) := by
  -- The account is kept for the texts of the store before, which are those after as well.
  suffices haudits : (s'.Contains id → (s'.block id).Audited s.render (log ++ events)) ∧
      (¬s'.Contains id → log ++ events = []) from
    ⟨fun hmade => (haudits.1 hmade).render_congr hrender, haudits.2⟩
  cases hstep with
  | kept hblock hcontains =>
      rw [hcontains, hblock, List.append_nil]
      exact ⟨hlog.audited, hlog.eq_nil⟩
  | rejected hblock hcontains hsealed =>
      rw [hcontains, hblock]
      refine ⟨fun hmade => (hlog.audited hmade).rejected hsealed, fun hnew => ?_⟩
      -- Where there is no block, nothing is sealed.
      rw [isSealed, block_of_not_contains hnew] at hsealed
      cases hsealed
  | changed hbefore hafter hblock heffect =>
      rw [hblock]
      refine ⟨fun _ => ?_, fun hnew => absurd hafter hnew⟩
      exact heffect.audited hordered (hlog.audited hbefore)
  | created hnew hmade hblock hbirth =>
      rw [hblock, hlog.eq_nil hnew, List.nil_append]
      exact ⟨fun _ => hbirth.audited, fun hnot => absurd hmade hnot⟩

end Store

namespace Heap

variable {h : Heap} {actions : List Action} {action : Action}

/-- What an action does to a block and what is recorded of it go together. -/
theorem Sound.logStep (hs : h.Sound) (ha : h.Allows action) (id : ClassId) :
    h.store.LogStep (h.next action).store id (loggedOn id (h.record? action).toList) := by
  cases action with
  | call call =>
      have hrefs := hs.contains_references ha
      have hreported := Store.reported hrefs
      -- The next store and the record speak of one outcome, which the cases are on.
      have hnext : (h.next (.call call)).store = (h.store.perform call).store := rfl
      have hrecord : (h.record? (.call call)).toList = [call.record (h.store.perform call)] := rfl
      rw [hnext, hrecord]
      generalize h.store.perform call = outcome at hreported
      cases hreported with
      | frozen hc hsealed =>
          rw [loggedOn_singleton, Record.source?_of_receiver hc]
          split
          case isTrue hid =>
            cases hid
            exact .rejected rfl Iff.rfl hsealed
          case isFalse => exact .kept rfl Iff.rfl
      | refused hc =>
          rw [loggedOn_singleton, Record.source?_of_receiver hc, Call.record, ite_self]
          exact .kept rfl Iff.rfl
      | incomplete hc =>
          rw [loggedOn_singleton, Record.source?_of_refused hc rfl]
          exact .kept rfl Iff.rfl
      | changed hc heffect =>
          have hmade := hrefs _ (Call.receiver_mem_references hc)
          rw [loggedOn_singleton, Record.source?_of_receiver hc]
          split
          case isTrue hid =>
            cases hid
            exact .changed hmade (Store.contains_set.2 hmade) (Store.block_set_self hmade _) heffect
          case isFalse hid =>
            have hother : id ≠ _ := fun e => hid (congrArg some e.symm)
            exact .kept (Store.block_set_of_ne hother _) Store.contains_set
      | created hbirth =>
          rw [loggedOn_singleton, Record.source?_of_made hbirth.receiver?_eq_none rfl]
          split
          case isTrue hid =>
            cases hid
            exact .created (fun hmade => Store.ne_nextId hmade rfl)
              (Store.contains_push_nextId _ _) (Store.block_push_nextId _ _) hbirth
          case isFalse hid =>
            have hother : id ≠ h.store.nextId := fun e => hid (congrArg some e.symm)
            refine .kept (Store.block_push_of_ne hother) ?_
            rw [Store.contains_push, or_iff_left hother]
  | copy | takeEntry | takeFromBase | drop | free => exact .kept rfl Iff.rfl

/-- What the bases of a block show after an action they showed before it, when the block had them
or the caller was about to add them. -/
theorem Reachable.render_next (hr : h.Reachable) (ha : h.Allows action) (id : ClassId) :
    ∀ base ∈ (h.next action).store.bases id,
      (h.next action).store.render base = h.store.render base := by
  intro base hbase
  have hadm : h.Admits [action] := ⟨ha, trivial⟩
  -- The classes in the bases were all made before the action, and keep their names.
  refine congrArg Shape.render (hr.view_run hadm fun c hc => ?_)
  exact hr.sound.owned_next ha hr.owned_made id c.block
    (ClassBlock.mem_owned.2 (.inr ⟨base, hbase, c, hc, rfl⟩))

/-- The log of a block is its account after every possible run from the start. -/
theorem audits_run (hadm : empty.Admits actions) (id : ClassId) :
    (empty.run actions).store.Audits id (loggedOn id (empty.history actions)) := by
  induction hadm using Admits.induction with
  | nil => exact ⟨fun hmade => absurd hmade (Nat.not_lt_zero _), fun _ => rfl⟩
  | concat actions action hadm ha ih =>
      have hr := hadm.reachable
      rw [history_concat, loggedOn_append, run_append]
      exact (hr.sound.logStep ha id).audits (hr.ordered id) (hr.render_next ha id) ih

/-- Every record of a possible run reports its call. -/
theorem exists_reported (hadm : empty.Admits actions) :
    ∀ r ∈ empty.history actions, ∃ s outcome, Reported s r.call outcome ∧
      r = r.call.record outcome := by
  induction hadm using Admits.induction with
  | nil => exact nofun
  | concat actions action hadm ha ih =>
      intro r hr
      rw [history_concat] at hr
      rcases List.mem_append.1 hr with hr | hr
      · exact ih r hr
      · -- Only a call has a record.
        cases action with
        | call call =>
            rw [record?, Option.toList_some, List.mem_singleton] at hr
            subst hr
            exact ⟨_, _, Store.reported (hadm.reachable.sound.contains_references ha), rfl⟩
        | copy | takeEntry | takeFromBase | drop | free => cases hr

/-- The log is a faithful account of what was accepted. Take any possible run from the start. No
call that was refused logged that a class was made. For every block that exists at the end, what the
calls on it logged begins with its making, which is logged once; the bases that were logged are its
bases with their texts; the length of its order is the one that the log tells, or it is the head
alone and nothing was told; and its sealing was logged once if it is sealed, with nothing but
refusals after it, and else not at all. Nothing was logged for a block that does not exist. A length
that was logged in a step of the run is the length of the order right after the step. -/
theorem log_audits_changes (hadm : empty.Admits actions) :
    (∀ r ∈ empty.history actions, ∀ e, r.result = .error e → ∀ name,
      .created name ∉ r.events) ∧
    (∀ id, (empty.run actions).store.Audits id (loggedOn id (empty.history actions))) ∧
    ∀ before action after, actions = before ++ action :: after → ∀ id,
      ∀ event ∈ loggedOn id ((empty.run before).record? action).toList,
        ∀ length, event.length? = some length →
          length = (empty.run (before ++ [action])).store.mroLength id := by
  refine ⟨?_, audits_run hadm, ?_⟩
  · -- A refusal logs what refused the call, or nothing.
    intro r hr e hresult name hmem
    obtain ⟨s, outcome, hreported, heq⟩ := exists_reported hadm r hr
    rw [heq] at hresult hmem
    cases hreported with
    | frozen | incomplete => cases List.mem_singleton.1 hmem
    | refused => cases hmem
    | changed | created => cases hresult
  · rintro before action after rfl id event hevent length hlength
    obtain ⟨hbefore, ha, -⟩ := admits_append.1 hadm
    rw [run_append]
    -- The block is ordered right after the step too, where its length is read.
    have hordered := (hbefore.reachable.next ha).ordered id
    exact (hbefore.reachable.sound.logStep ha id).length_eq hordered hevent hlength

/-- A class is refused for its scope and two are made. The order of the first is started, extended,
cleared and started again; it gets a base, is sealed, and refuses another base. -/
def pointAudited : List Action :=
  let table := BodyScope.empty.toTable
  let point := ClassRef.ofBlock ⟨0⟩
  let origin := ClassRef.ofBlock ⟨1⟩
  [.call (.create "Broken" {}), .call (.create "Point" table),
    .call (.createWithAncestors "Origin" table [point]), .call (.extendMro point point),
    .call (.extendMro point origin), .call (.addBase point (.nominal origin)),
    .call (.replaceMro point []), .call (.extendMro point point), .call (.sealClass point),
    .call (.addBase point .any), .call (.sealClass point)]

/-- The starts of the order are not in the log, and the refusal after the sealing is. The length
that was logged at the sealing is that of the head alone. -/
theorem log_audits_changes_point :
    empty.Admits pointAudited ∧
      loggedOn ⟨0⟩ (empty.history pointAudited) =
        [.created "Point", .ancestorAdded "Point" "Origin",
          .baseAdded "Point" "<class Origin>", .mroSet "Point" 0, .sealedWith "Point" 1,
          .mutationRejected "Point"] ∧
      (empty.run pointAudited).store.Audits ⟨0⟩
        [.created "Point", .ancestorAdded "Point" "Origin",
          .baseAdded "Point" "<class Origin>", .mroSet "Point" 0, .sealedWith "Point" 1,
          .mutationRejected "Point"] := by
  have hadm : empty.Admits pointAudited := by decide
  obtain ⟨-, haudits, -⟩ := log_audits_changes hadm
  have hlog : loggedOn ⟨0⟩ (empty.history pointAudited) =
      [.created "Point", .ancestorAdded "Point" "Origin",
        .baseAdded "Point" "<class Origin>", .mroSet "Point" 0, .sealedWith "Point" 1,
        .mutationRejected "Point"] := by
    decide
  refine ⟨hadm, hlog, ?_⟩
  rw [← hlog]
  exact haudits ⟨0⟩

end Heap

end TypeRegistry
