import Mathlib.Order.Defs.Unbundled
import TypeRegistry.Session.Class

/-!
# Runs of a session

Everything that changes a session, as data, so that a run is a list of steps. What a step does is
put together from what its parts do: it reads slots, which leaves the session as it is, and then
writes.

## Main definitions and statements

* `Session.Step`, `Session.afterAll`: the steps of a session, and runs of them.
* `Session.exists_of_bind_ok`: steps in a row, taken apart.
* `Session.Moves`: where a step leads from a session whenever it succeeds.
* `Session.Moves.bind`, `Session.Moves.of_reads`: a step leads where its parts lead, and reading
  leads nowhere.
-/

namespace TypeRegistry.Session

/-- Something that can be done in a session, with its arguments. Steps that only read are not
listed. -/
inductive Step where
  | putScope (slot : String) (scope : HeldScope)
  | copyScope (source slot : String)
  | declare (slot name : String) (d : Declaration)
  | letType (slot : String) (e : TypeExpr)
  | nestType (slot : String) (e : TypeExpr) (w : Wrapper) (times : Nat)
  | create (slot name : String) (scope? : Option String)
  | createWithAncestors (slot name : String) (scope? : Option String) (ancestors : List String)
  | copyClass (source slot : String) (mode : CopyMode)
  | dropClass (slot : String)
  | replaceMro (slot : String) (mro : List String)
  | extendMro (slot entry : String)
  | addBase (slot : String) (base : TypeExpr)
  | sealClass (slot : String)

/-- The step without what it reports. -/
def Step.perform : Step → SessionM Unit
  | .putScope slot scope => Session.putScope slot scope
  | .copyScope source slot => Session.copyScope source slot
  | .declare slot name d => discard (Session.declare slot name d)
  | .letType slot e => discard (Session.letType slot e)
  | .nestType slot e w times => Session.nestType slot e w times
  | .create slot name scope? => discard (Session.create slot name scope?)
  | .createWithAncestors slot name scope? ancestors =>
    discard (Session.createWithAncestors slot name scope? ancestors)
  | .copyClass source slot mode => discard (Session.copyClass source slot mode)
  | .dropClass slot => discard (Session.dropClass slot)
  | .replaceMro slot mro => discard (Session.replaceMro slot mro)
  | .extendMro slot entry => discard (Session.extendMro slot entry)
  | .addBase slot base => discard (Session.addBase slot base)
  | .sealClass slot => discard (Session.sealClass slot)

/-- The session after a step. One that fails changes nothing. -/
def after (session : Session) (step : Step) : Session :=
  match step.perform.run session with
  | .ok (_, session) => session
  | .error _ => session

/-- The session after a run of steps. -/
def afterAll (session : Session) (steps : List Step) : Session :=
  steps.foldl after session

/-! ### What a step does to the session -/

variable {α β : Type} {session : Session}

/-- Two steps in a row succeed when both do, the second in the session that the first leaves. -/
theorem exists_of_bind_ok {first : SessionM α} {rest : α → SessionM β} {outcome : β × Session}
    (hok : (first >>= rest).run session = .ok outcome) :
    ∃ a between, first.run session = .ok (a, between) ∧
      (rest a).run between = .ok outcome := by
  rw [StateT.run_bind] at hok
  cases hrun : first.run session with
  | error e =>
      rw [hrun] at hok
      cases hok
  | ok read =>
      obtain ⟨a, between⟩ := read
      rw [hrun] at hok
      exact ⟨a, between, rfl, hok⟩

/-- Whenever the step succeeds, `R` leads from the session before it to the one after it. -/
def Moves (R : Session → Session → Prop) (step : SessionM α) : Prop :=
  ∀ session result later, step.run session = .ok (result, later) → R session later

/-- A change of the session moves it as the change does. -/
theorem Moves.modify {R : Session → Session → Prop} {f : Session → Session}
    (hf : ∀ session, R session (f session)) : Moves R (modify f : SessionM Unit) := by
  intro session result later hok
  cases hok
  exact hf session

variable {R : Session → Session → Prop} [IsPreorder Session R]

/-- Two steps one after the other move a session as a preorder does when both do. -/
theorem Moves.bind {first : SessionM α} {rest : α → SessionM β} (hfirst : Moves R first)
    (hrest : ∀ a, Moves R (rest a)) : Moves R (first >>= rest) := by
  intro session b later hok
  obtain ⟨a, between, hrun, hlater⟩ := exists_of_bind_ok hok
  exact trans_of R (hfirst _ _ _ hrun) (hrest a _ _ _ hlater)

/-- A step that only reads moves nowhere. -/
theorem Moves.of_reads {step : SessionM α} (hreads : Moves Eq step) : Moves R step := by
  intro session result later hok
  rw [hreads _ _ _ hok]
  exact refl_of R later

theorem moves_pure (a : α) : Moves Eq (pure a : SessionM α) := by
  intro session result later hok
  cases hok
  rfl

theorem moves_get : Moves Eq (get : SessionM Session) := by
  intro session result later hok
  cases hok
  rfl

theorem moves_lift (x : Except EmptySlot α) : Moves Eq (liftM x : SessionM α) := by
  intro session result later hok
  cases x with
  | error e => cases hok
  | ok a =>
      cases hok
      rfl

/-- After a step that only reads, what follows runs on the same session. -/
theorem exists_of_bind_reads {first : SessionM α} {rest : α → SessionM β} {outcome : β × Session}
    (hreads : Moves Eq first) (hok : (first >>= rest).run session = .ok outcome) :
    ∃ a, first.run session = .ok (a, session) ∧ (rest a).run session = .ok outcome := by
  obtain ⟨a, between, hrun, hrest⟩ := exists_of_bind_ok hok
  obtain rfl := hreads _ _ _ hrun
  exact ⟨a, hrun, hrest⟩

/-- Steps over a list move a session when each of them does. -/
theorem Moves.mapM {f : α → SessionM β} (hf : ∀ a, Moves R (f a)) (as : List α) :
    Moves R (as.mapM f) := by
  induction as with
  | nil => exact .of_reads (moves_pure [])
  | cons a as ih =>
      rw [List.mapM_cons]
      exact (hf a).bind fun b => ih.bind fun bs => .of_reads (moves_pure (b :: bs))

theorem Moves.discard {step : SessionM α} (hstep : Moves R step) :
    Moves R (discard step : SessionM Unit) := by
  show Moves R (Functor.map (fun _ => ()) step)
  rw [map_eq_pure_bind]
  exact hstep.bind fun _ => .of_reads (moves_pure ())

theorem moves_classIn (slot : String) : Moves Eq (classIn slot) :=
  moves_get.bind fun _ => moves_lift _

theorem moves_scopeIn (slot : String) : Moves Eq (scopeIn slot) :=
  moves_get.bind fun _ => moves_lift _

theorem moves_typeOf (e : TypeExpr) : Moves Eq (typeOf e) :=
  moves_get.bind fun _ => moves_lift _

theorem moves_tableFor (scope? : Option String) : Moves Eq (tableFor scope?) := by
  cases scope? with
  | none => exact moves_pure _
  | some slot => exact (moves_scopeIn slot).bind fun _ => moves_pure _

end TypeRegistry.Session
