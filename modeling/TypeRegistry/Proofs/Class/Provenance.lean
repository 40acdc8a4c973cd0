import TypeRegistry.Proofs.Class.Creation
import TypeRegistry.Proofs.Class.History

/-!
# Identity is provenance

A class type that a program comes by is handed on from one place to another: a call gives it, it is
copied, it is given as an entry of an order or inside a base and read back there later. Where it
comes from in the end is the call that made its class, and this is what the identity of classes
amounts to: two class types are the same class when they go back to the same call.

## Main definitions and statements

* `Heap.Obtainable`: the class types that a program can get at from what it holds.
* `Heap.TracesTo`: a class type goes back, from hand to hand, to a call of the run.
* `Heap.Traced.of_admits`: whatever a program holds or has given goes back to a call.
* `Heap.TracesTo.madeBy`: the call made the block of the class type.
* `Heap.identity_is_provenance`: class types are the same class when they go back to the same call.
-/

namespace TypeRegistry

/-! ### What calls are given -/

/-- The class types that a call gives as entries of an order. -/
def Call.entries : Call → List ClassRef
  | .createWithAncestors _ _ ancestors => ancestors
  | .replaceMro _ mro => mro
  | .extendMro _ entry => [entry]
  | .create .. | .addBase .. | .sealClass _ => []

section Given

variable {id : ClassId} {calls : List Call} {c : ClassRef}

/-- What an order begins with was given to a call, but for the block itself. -/
theorem mem_lastOrder (hc : c ∈ lastOrder id calls) :
    c = .ofBlock id ∨ ∃ call ∈ calls, c ∈ call.references := by
  rw [lastOrder] at hc
  -- The order that was set last, or else the one that the block was made with.
  cases hset : calls.reverse.findSome? Call.replacement? with
  | some mro =>
      rw [hset, Option.getD_some] at hc
      obtain ⟨call, hcall, hmro⟩ := List.exists_of_findSome?_eq_some hset
      refine .inr ⟨call, List.mem_reverse.1 hcall, ?_⟩
      cases call with
      | replaceMro receiver mro' =>
          cases hmro
          exact List.mem_cons_of_mem _ hc
      | _ => cases hmro
  | none =>
      rw [hset, Option.getD_none, initialOrder] at hc
      split at hc
      case h_1 | h_2 => cases hc
      case h_3 first rest hmade =>
        obtain ⟨call, hcall, hancestors⟩ := List.exists_of_findSome?_eq_some hmade
        rcases List.mem_cons.1 hc with rfl | hc
        · exact .inl rfl
        · refine .inr ⟨call, hcall, ?_⟩
          cases call with
          | createWithAncestors =>
              cases hancestors
              exact hc
          | _ => cases hancestors

/-- What was appended to an order since was given to a call. -/
theorem mem_entriesSince (hc : c ∈ entriesSince calls) :
    ∃ call ∈ calls, c ∈ call.references := by
  obtain ⟨call, hcall, hentry⟩ := List.mem_filterMap.1 hc
  refine ⟨call, (List.rtakeWhile_suffix _ _).subset hcall, ?_⟩
  cases call with
  | extendMro =>
      cases hentry
      simp [Call.references]
  | _ => cases hentry

/-- The classes of a base that was added were given to a call. -/
theorem mem_basesAdded {base : Ty} (hbase : base ∈ basesAdded calls) (hc : c ∈ base.classes) :
    ∃ call ∈ calls, c ∈ call.references := by
  obtain ⟨call, hcall, hadded⟩ := List.mem_filterMap.1 hbase
  refine ⟨call, hcall, ?_⟩
  cases call with
  | addBase =>
      cases hadded
      exact List.mem_cons_of_mem _ hc
  | _ => cases hadded

end Given

/-- No accepted call takes a base away. -/
theorem Effect.mem_bases {b b' : ClassBlock} {call : Call} {base : Ty}
    (heffect : Effect b call b') (hbase : base ∈ b.bases) : base ∈ b'.bases := by
  cases heffect with
  | addBase => exact List.mem_append_left _ hbase
  | clear | reorder | start | extend | sealBlock => exact hbase

/-- Class types are the same class when they have the same block. -/
theorem ClassRef.isSameClass_iff {c d : ClassRef} :
    c.isSameClass d = true ↔ c.block = d.block := by
  rw [isSameClass, decide_eq_true_iff]

/-- Class types are equal when they are the same class in the same flavor. -/
theorem ClassRef.beq_iff {c d : ClassRef} :
    (c == d) = true ↔ c.isSameClass d = true ∧ c.flavor = d.flavor := by
  obtain ⟨block, flavor⟩ := c
  obtain ⟨block', flavor'⟩ := d
  rw [beq_iff_eq, ClassRef.mk.injEq, isSameClass_iff]

namespace Heap

/-- The class types that a program can get at: the handles that it holds, their copies, and what can
be read with these as entries of orders and inside bases. -/
inductive Obtainable (h : Heap) : ClassRef → Prop
  | held {c : ClassRef} (hc : c ∈ h.held) : Obtainable h c
  | copy {c : ClassRef} (mode : CopyMode) (hc : Obtainable h c) : Obtainable h (c.copy mode)
  | entry {c entry : ClassRef} (hc : Obtainable h c) (hentry : entry ∈ h.store.mro c.block) :
      Obtainable h entry
  | insideBase {c found : ClassRef} {base : Ty} (hc : Obtainable h c)
      (hbase : base ∈ h.store.bases c.block) (hfound : found ∈ base.classes) : Obtainable h found

/-- The accepted calls of a run from the start on the block `id`. -/
def acceptedOn (actions : List Action) (id : ClassId) : List Call :=
  acceptedCalls id (empty.history actions)

/-- The order that a run from the start gave to the block `id`, as it was given. -/
def orderGiven (actions : List Action) (id : ClassId) : List ClassRef :=
  lastOrder id (acceptedOn actions id) ++ entriesSince (acceptedOn actions id)

/-- The bases that a run from the start gave to the block `id`. -/
def basesGiven (actions : List Action) (id : ClassId) : List Ty :=
  basesAdded (acceptedOn actions id)

/-- A class type that a program comes by in the run `actions` goes back to the action number `k`. A
reading is made at the moment `m`, after so many actions. -/
inductive TracesTo (actions : List Action) : ClassRef → Nat → Prop
  /-- What a call gives goes back to the call. -/
  | made {k : Nat} {call : Call} {id : ClassId} (hmade : MadeBy actions k call id) :
      TracesTo actions (.ofBlock id) k
  /-- A copy goes back to where its original does. -/
  | copy {c : ClassRef} {k : Nat} (mode : CopyMode) (hc : TracesTo actions c k) :
      TracesTo actions (c.copy mode) k
  /-- The head of an order goes back to where the class does whose order is read. -/
  | head {c head : ClassRef} {k m : Nat} (hm : m ≤ actions.length)
      (hhead : ((empty.run (actions.take m)).store.mro c.block)[0]? = some head)
      (hc : TracesTo actions c k) : TracesTo actions head k
  /-- A further entry goes back to where the class type does that was given in its place. -/
  | ancestor (id : ClassId) {given entry : ClassRef} {i k m : Nat} (hm : m ≤ actions.length)
      (hgiven : (orderGiven (actions.take m) id)[i + 1]? = some given)
      (hentry : ((empty.run (actions.take m)).store.mro id)[i + 1]? = some entry)
      (hc : TracesTo actions given k) : TracesTo actions entry k
  /-- A class inside a base goes back to where the class type does that was given in its place. -/
  | insideBase (id : ClassId) {given base : Ty} {c found : ClassRef} {i j k m : Nat}
      (hm : m ≤ actions.length) (hgiven : (basesGiven (actions.take m) id)[i]? = some given)
      (hbase : ((empty.run (actions.take m)).store.bases id)[i]? = some base)
      (hplace : given.classes[j]? = some c) (hfound : base.classes[j]? = some found)
      (hc : TracesTo actions c k) : TracesTo actions found k

variable {h : Heap} {actions : List Action} {c d : ClassRef} {k l : Nat} {id : ClassId}

/-- What goes back to a call in a run does so in every longer run. -/
theorem TracesTo.append (hc : TracesTo actions c k) (later : List Action) :
    TracesTo (actions ++ later) c k := by
  have htake {m : Nat} (hm : m ≤ actions.length) : (actions ++ later).take m = actions.take m :=
    List.take_append_of_le_length hm
  have hlong {m : Nat} (hm : m ≤ actions.length) : m ≤ (actions ++ later).length := by
    rw [List.length_append]
    omega
  -- A reading at a moment of the shorter run is one at the same moment of the longer.
  induction hc with
  | made hmade => exact .made (hmade.append later)
  | copy mode _ ih => exact .copy mode ih
  | head hm hhead _ ih =>
      rw [← htake hm] at hhead
      exact .head (hlong hm) hhead ih
  | ancestor id hm hgiven hentry _ ih =>
      rw [← htake hm] at hgiven hentry
      exact .ancestor id (hlong hm) hgiven hentry ih
  | insideBase id hm hgiven hbase hplace hfound _ ih =>
      rw [← htake hm] at hgiven hbase
      exact .insideBase id (hlong hm) hgiven hbase hplace hfound ih

/-- The order that is read is the one that was given, with class objects for its entries. -/
theorem mro_eq_orderGiven (hadm : empty.Admits actions) (id : ClassId) :
    (empty.run actions).store.mro id = (orderGiven actions id).map ClassRef.toInstantiable :=
  (retells_history hadm id).mro

/-- The bases that are read are those that were given. -/
theorem bases_eq_basesGiven (hadm : empty.Admits actions) (id : ClassId) :
    (empty.run actions).store.bases id = basesGiven actions id :=
  (retells_history hadm id).bases

/-- The call to which a class type goes back made its block. -/
theorem TracesTo.madeBy (hadm : empty.Admits actions) (hc : TracesTo actions c k) :
    ∃ call, MadeBy actions k call c.block := by
  induction hc with
  | made hmade => exact ⟨_, hmade⟩
  | copy mode _ ih =>
      rw [ClassRef.block_copy]
      exact ih
  | @head c head _ m _ hhead _ ih =>
      -- The head of an order that is not empty is the block itself.
      have hmem := List.mem_of_getElem? hhead
      rcases ClassBlock.mro_eq_nil_or_cons ((empty.run (actions.take m)).store.block c.block)
        c.block with hnil | hcons
      · rw [Store.mro, hnil] at hmem
        cases hmem
      · rw [Store.mro, hcons] at hhead
        cases hhead
        exact ih
  | ancestor _ _ hgiven hentry _ ih =>
      -- The entry differs from what was given in its flavor alone.
      rw [mro_eq_orderGiven (hadm.split _).1, List.getElem?_map, hgiven] at hentry
      cases hentry
      exact ih
  -- Bases are read as they were given, flavors included.
  | insideBase _ _ hgiven hbase hplace hfound _ ih =>
      rw [bases_eq_basesGiven (hadm.split _).1, hgiven] at hbase
      cases hbase
      rw [hplace] at hfound
      cases hfound
      exact ih

/-! ### Everything goes back to a call -/

/-- Whatever a program holds at the end of a run, and whatever it gave to a call, goes back to a
call. -/
structure Traced (actions : List Action) : Prop where
  held : ∀ c ∈ (empty.run actions).held, ∃ k, TracesTo actions c k
  given : ∀ r ∈ empty.history actions, ∀ c ∈ r.call.references, ∃ k, TracesTo actions c k

/-- What was given to an accepted call goes back to a call. -/
theorem Traced.given_of_accepted (ht : Traced actions) {call : Call}
    (hcall : call ∈ acceptedOn actions id) (hc : c ∈ call.references) :
    ∃ k, TracesTo actions c k := by
  obtain ⟨r, hr, rfl⟩ := List.mem_map.1 hcall
  exact ht.given r (List.mem_filter.1 hr).1 c hc

/-- An entry that is read goes back to a call if the class does whose order is read. -/
theorem Traced.entry (hadm : empty.Admits actions) (ht : Traced actions)
    (hc : TracesTo actions c k) {entry : ClassRef}
    (hentry : entry ∈ (empty.run actions).store.mro c.block) : ∃ l, TracesTo actions entry l := by
  obtain ⟨i, hi⟩ := List.mem_iff_getElem?.1 hentry
  have hread := hi
  rw [← actions.take_length] at hread
  cases i with
  | zero => exact ⟨k, .head le_rfl hread hc⟩
  | succ i =>
      rw [mro_eq_orderGiven hadm, List.getElem?_map, Option.map_eq_some_iff] at hi
      obtain ⟨given, hgiven, -⟩ := hi
      -- What was given in this place is the class itself, or was given to a call.
      have htraced : ∃ l, TracesTo actions given l := by
        rcases List.mem_append.1 (List.mem_of_getElem? hgiven) with hmem | hmem
        · rcases mem_lastOrder hmem with rfl | ⟨call, hcall, hgivenTo⟩
          · exact ⟨k, hc.copy .fromBlock⟩
          · exact ht.given_of_accepted hcall hgivenTo
        · obtain ⟨call, hcall, hgivenTo⟩ := mem_entriesSince hmem
          exact ht.given_of_accepted hcall hgivenTo
      obtain ⟨l, hl⟩ := htraced
      rw [← actions.take_length] at hgiven
      exact ⟨l, .ancestor _ le_rfl hgiven hread hl⟩

/-- A class inside a base that is read goes back to a call. -/
theorem Traced.insideBase (hadm : empty.Admits actions) (ht : Traced actions) {base : Ty}
    (hbase : base ∈ (empty.run actions).store.bases id) {found : ClassRef}
    (hfound : found ∈ base.classes) : ∃ l, TracesTo actions found l := by
  -- The base and the place in it are those of the base that was given.
  obtain ⟨i, hi⟩ := List.mem_iff_getElem?.1 hbase
  obtain ⟨j, hj⟩ := List.mem_iff_getElem?.1 hfound
  have hread := hi
  rw [bases_eq_basesGiven hadm] at hi
  obtain ⟨call, hcall, hgivenTo⟩ := mem_basesAdded (List.mem_of_getElem? hi) hfound
  obtain ⟨l, hl⟩ := ht.given_of_accepted hcall hgivenTo
  rw [← actions.take_length] at hi hread
  exact ⟨l, .insideBase _ le_rfl hi hread hj hj hl⟩

/-- What a program holds after one more action goes back to a call. -/
theorem Traced.held_concat (hadm : empty.Admits actions) (ht : Traced actions) {action : Action}
    (ha : (empty.run actions).Allows action) (hc : c ∈ ((empty.run actions).next action).held) :
    ∃ k, TracesTo (actions ++ [action]) c k := by
  have hheld (d : ClassRef) (hd : d ∈ (empty.run actions).held) :
      ∃ k, TracesTo (actions ++ [action]) d k := by
    obtain ⟨k, hk⟩ := ht.held d hd
    exact ⟨k, hk.append [action]⟩
  -- Only the handle that the action adds, if it adds one, was not there before.
  cases action with
  | call call =>
      rcases hadm.reachable.sound.held_next_call ha hc with hc | ⟨id, rfl, hresult⟩
      · exact hheld c hc
      · exact ⟨actions.length, .made (.last hresult)⟩
  | copy original mode =>
      rcases List.mem_cons.1 hc with rfl | hc
      · obtain ⟨k, hk⟩ := hheld original ha
        exact ⟨k, hk.copy mode⟩
      · exact hheld c hc
  | takeEntry receiver entry =>
      rcases List.mem_cons.1 hc with rfl | hc
      · obtain ⟨hreceiver, hentry⟩ := ha
        obtain ⟨k, hk⟩ := ht.held receiver hreceiver
        obtain ⟨l, hl⟩ := ht.entry hadm hk hentry
        exact ⟨l, hl.append [_]⟩
      · exact hheld c hc
  | takeFromBase receiver found =>
      rcases List.mem_cons.1 hc with rfl | hc
      · obtain ⟨-, base, hbase, hfound⟩ := ha
        obtain ⟨l, hl⟩ := ht.insideBase hadm hbase hfound
        exact ⟨l, hl.append [_]⟩
      · exact hheld c hc
  -- Letting go of a handle or freeing a block adds none.
  | drop other => exact hheld c (List.mem_of_mem_erase hc)
  | free id => exact hheld c hc

/-- What was given to a call up to one more action goes back to a call. -/
theorem Traced.given_concat (ht : Traced actions) {action : Action}
    (ha : (empty.run actions).Allows action) {r : Record}
    (hr : r ∈ empty.history (actions ++ [action])) (hc : c ∈ r.call.references) :
    ∃ k, TracesTo (actions ++ [action]) c k := by
  have htraced : ∃ k, TracesTo actions c k := by
    rw [history_concat] at hr
    rcases List.mem_append.1 hr with hr | hr
    · exact ht.given r hr c hc
    · -- The program held what it gave to the last call.
      cases action with
      | call call =>
          rw [record?, Option.toList_some, List.mem_singleton] at hr
          subst hr
          exact ht.held c (ha c hc)
      | copy | takeEntry | takeFromBase | drop | free => cases hr
  obtain ⟨k, hk⟩ := htraced
  exact ⟨k, hk.append [action]⟩

/-- In every possible run from the start everything goes back to a call. -/
theorem Traced.of_admits (hadm : empty.Admits actions) : Traced actions := by
  -- On the actions of the run, for handles and for what calls are given together: a call is given
  -- what is held, and what is held may have been read out of what calls were given.
  induction hadm using Admits.induction with
  | nil => exact ⟨nofun, nofun⟩
  | concat actions action hadm ha ih =>
      refine ⟨fun c hc => ?_, fun r hr c hc => ih.given_concat ha hr hc⟩
      rw [run_append] at hc
      exact ih.held_concat hadm ha hc

/-- What a program can get at goes back to a call. -/
theorem Obtainable.exists_tracesTo (hadm : empty.Admits actions)
    (hc : (empty.run actions).Obtainable c) : ∃ k, TracesTo actions c k := by
  have ht := Traced.of_admits hadm
  induction hc with
  | held hc => exact ht.held _ hc
  | copy mode _ ih =>
      obtain ⟨k, hk⟩ := ih
      exact ⟨k, hk.copy mode⟩
  | entry _ hentry ih =>
      obtain ⟨k, hk⟩ := ih
      exact ht.entry hadm hk hentry
  | insideBase _ hbase hfound => exact ht.insideBase hadm hbase hfound

/-- What a program can get at is a class type of a block in memory. -/
theorem Obtainable.block_mem_live (hs : h.Sound) (hc : h.Obtainable c) : c.block ∈ h.live := by
  induction hc with
  | held hc => exact hs.held_live _ hc
  | copy mode _ ih =>
      rw [ClassRef.block_copy]
      exact ih
  | entry _ hentry ih => exact hs.mem_live_of_mem_mro ih hentry
  | insideBase _ hbase hfound ih =>
      exact hs.owned_live _ ih _ (ClassBlock.mem_owned.2 (.inr ⟨_, hbase, _, hfound, rfl⟩))

/-! ### What is read back -/

/-- The entries that an accepted call gives are what the order of its block ends with, as class
objects. -/
theorem entries_suffix_mro (hadm : empty.Admits actions) {call : Call}
    (ha : (empty.run actions).Allows (.call call))
    (hsubject : (call.record ((empty.run actions).store.perform call)).subject? = some id) :
    call.entries.map ClassRef.toInstantiable <:+
      ((empty.run actions).next (.call call)).store.mro id := by
  -- The call is the last on its block, and the order is told by the calls on the block.
  have haccepted : acceptedOn (actions ++ [.call call]) id = acceptedOn actions id ++ [call] := by
    rw [acceptedOn, history_concat, acceptedCalls_append, record?, Option.toList_some,
      acceptedCalls_of_subject hsubject]
    rfl
  have hmro := mro_eq_orderGiven (hadm.concat ha) id
  rw [run_append, run_cons, run_nil, orderGiven, haccepted] at hmro
  rw [hmro]
  refine List.IsSuffix.map _ ?_
  cases call with
  | create | addBase | sealClass => exact List.nil_suffix
  | replaceMro c mro =>
      rw [lastOrder_of_replacement rfl, entriesSince_of_replacement rfl, List.append_nil]
      exact List.suffix_rfl
  | extendMro c entry =>
      rw [entriesSince_of_other rfl, ← List.append_assoc]
      exact List.suffix_append _ _
  | createWithAncestors name table ancestors =>
      -- Nothing was done to a block before the call that made it.
      have hnew : acceptedOn actions id = [] := by
        refine acceptedCalls_of_not_contains hadm ?_
        cases hadm.reachable.sound.block_next ha id with
        | kept _ hcalls =>
            rw [record?, Option.toList_some, acceptedCalls_of_subject hsubject] at hcalls
            cases hcalls
        | changed hcall hc =>
            cases hcall
            cases hc
        | created _ hnew => exact hnew
      rw [hnew, List.nil_append]
      cases ancestors with
      | nil => exact List.nil_suffix
      | cons first rest =>
          show first :: rest <:+ (.ofBlock id :: first :: rest) ++ []
          rw [List.append_nil]
          exact List.suffix_cons _ _

/-- A base that was added is among the bases of its block from then on. -/
theorem Reachable.base_mem_run (hr : h.Reachable) {base : Ty}
    (ha : h.Allows (.call (.addBase c base)))
    (hok : (h.store.perform (.addBase c base)).result = .ok none) {later : List Action}
    (hlater : (h.next (.call (.addBase c base))).Admits later) :
    base ∈ ((h.next (.call (.addBase c base))).run later).store.bases c.block := by
  have hcontains := hr.sound.contains_references ha c List.mem_cons_self
  have hafter := hr.sound.contains_next ha hcontains
  -- The base is there after the call, and no accepted call takes one away.
  refine ((hr.next ha).block_run hlater hafter (P := fun b => base ∈ b.bases) ?_ ?_).2
  · have hperformed := (Store.reported_addBase (s := h.store) c base).performed
    rw [Heap.next]
    generalize (h.store.perform (.addBase c base)).result = result,
      (h.store.perform (.addBase c base)).store = store at hperformed hok ⊢
    cases hperformed with
    | refused | created => cases hok
    | changed hc heffect =>
        cases hc
        rw [settle_ok_none, Store.block_set_self hcontains]
        cases heffect with
        | addBase => exact List.mem_append_right _ List.mem_cons_self
  · intro call b b' hbase heffect
    exact heffect.mem_bases hbase

/-- Identity is provenance. After any possible run from the start, every class type that the program
can get at goes back to a call of the run that made its block, and two class types are the same
class when they go back to the same call; they are equal for `==` when also their flavors agree. So
a new class is none of those that were there before, whatever their names. A base is read back as it
was given, at every later moment, and the entries that an order was given are read back as the class
objects of the same blocks; and going over to the instance and back gives a class type equal to the
first when that was a class object. -/
theorem identity_is_provenance (hadm : empty.Admits actions) :
    let h := empty.run actions
    (∀ c, h.Obtainable c → ∃ k, TracesTo actions c k) ∧
    (∀ c k, TracesTo actions c k → ∃ call, MadeBy actions k call c.block) ∧
    (∀ c d k l, TracesTo actions c k → TracesTo actions d l →
      (c.isSameClass d = true ↔ k = l) ∧ ((c == d) = true ↔ k = l ∧ c.flavor = d.flavor)) ∧
    (∀ call new, h.Allows (.call call) → (h.store.perform call).result = .ok (some new) →
      ∀ c, (h.Obtainable c ∨ c.block ∈ h.live) → c.isSameClass new = false) ∧
    (∀ c base, h.Allows (.call (.addBase c base)) →
      (h.store.perform (.addBase c base)).result = .ok none →
      ∀ later, (h.next (.call (.addBase c base))).Admits later →
        base ∈ ((h.next (.call (.addBase c base))).run later).store.bases c.block) ∧
    (∀ call id, h.Allows (.call call) →
      (call.record (h.store.perform call)).subject? = some id →
        call.entries.map ClassRef.toInstantiable <:+ (h.next (.call call)).store.mro id) ∧
    ∀ c : ClassRef, (c.toInstance.toInstantiable == c) = true ↔ c.flavor = .instantiable := by
  intro h
  have hr : h.Reachable := hadm.reachable
  refine ⟨fun c hc => hc.exists_tracesTo hadm, fun c k hc => hc.madeBy hadm, ?_, ?_, ?_, ?_, ?_⟩
  · intro c d k l hc hd
    obtain ⟨call, hmade⟩ := hc.madeBy hadm
    obtain ⟨call', hmade'⟩ := hd.madeBy hadm
    -- One block is made by one call, and one call makes one block.
    have hsame : c.isSameClass d = true ↔ k = l := by
      rw [ClassRef.isSameClass_iff]
      constructor
      · intro hblock
        rw [← hblock] at hmade'
        exact hmade.eq_of_block_eq hadm hmade'
      · rintro rfl
        exact hmade.block_eq hmade'
    exact ⟨hsame, by rw [ClassRef.beq_iff, hsame]⟩
  · intro call new ha hnew c hc
    have hs := hr.sound
    have hlive : c.block ∈ h.live := hc.elim (fun hc => hc.block_mem_live hs) id
    obtain ⟨id, rfl, hfresh, -⟩ := hs.birth_of_made ha hnew
    -- The block of the new class did not exist, while that of the other did.
    refine Bool.eq_false_iff.2 fun hsame => hfresh ?_
    have hblock : c.block = id := ClassRef.isSameClass_iff.1 hsame
    rw [← hblock]
    exact hs.contains_of_live _ hlive
  · intro c base ha hok later hlater
    exact hr.base_mem_run ha hok hlater
  · intro call id ha hsubject
    exact entries_suffix_mro hadm ha hsubject
  · intro c
    rw [ClassRef.beq_iff, ClassRef.isSameClass_iff]
    exact ⟨fun hc => hc.2.symm, fun hflavor => ⟨rfl, hflavor.symm⟩⟩

/-- Two classes of one name. The instance of the first is an ancestor of the second, occurs in its
base, and is taken out of there again. -/
def namesakes : List Action :=
  let table := BodyScope.empty.toTable
  let first := ClassRef.ofBlock ⟨0⟩
  let second := ClassRef.ofBlock ⟨1⟩
  [.call (.create "Point" table), .copy first .toInstance,
    .call (.createWithAncestors "Point" table [first.toInstance]),
    .call (.addBase second (.function { returns := some (.union [.nominal first.toInstance]) })),
    .takeFromBase second first.toInstance]

/-- Two classes of one name and one table are different, and each is recognised through whatever
path a reference to it took. -/
theorem identity_is_provenance_namesakes :
    empty.Admits namesakes ∧
      (let first := ClassRef.ofBlock ⟨0⟩
      let second := ClassRef.ofBlock ⟨1⟩
      let h := empty.run namesakes
      h.store.mro second.block = [second, first] ∧
        (TracesTo namesakes first 0 ∧ TracesTo namesakes first.toInstance 0 ∧
          TracesTo namesakes second 2) ∧
        (first.isSameClass first.toInstance = true ∧ (first == first.toInstance) = false) ∧
        first.isSameClass second = false ∧
        ∃ new, (h.store.perform (.create "Point" BodyScope.empty.toTable)).result = .ok (some new) ∧
          first.isSameClass new = false ∧ second.isSameClass new = false) := by
  have hadm : empty.Admits namesakes := by decide
  obtain ⟨-, -, hsame, hnew, -, -, -⟩ := identity_is_provenance hadm
  -- The class object is read back as an ancestor of the second class, the instance from its base.
  have hinstance : TracesTo namesakes (ClassRef.ofBlock ⟨0⟩).toInstance 0 :=
    .insideBase ⟨1⟩ (i := 0) (j := 0) (m := 4) (by decide) rfl rfl rfl rfl
      (.copy .toInstance (.made ⟨rfl, rfl⟩))
  have hfirst : TracesTo namesakes (.ofBlock ⟨0⟩) 0 :=
    .ancestor ⟨1⟩ (i := 0) (m := 3) (by decide) rfl rfl hinstance
  have hsecond : TracesTo namesakes (.ofBlock ⟨1⟩) 2 := .made ⟨rfl, rfl⟩
  have hallows : (empty.run namesakes).Allows
      (.call (.create "Point" BodyScope.empty.toTable)) := nofun
  refine ⟨hadm, rfl, ⟨hfirst, hinstance, hsecond⟩, ⟨?_, ?_⟩, ?_, _, rfl, ?_, ?_⟩
  · exact (hsame _ _ _ _ hfirst hinstance).1.2 rfl
  · exact Bool.eq_false_iff.2 fun heq =>
      nomatch ((hsame _ _ _ _ hfirst hinstance).2.1 heq).2
  · exact Bool.eq_false_iff.2 fun heq => nomatch (hsame _ _ _ _ hfirst hsecond).1.1 heq
  · exact hnew _ _ hallows rfl _ (.inl (.held (by decide)))
  · exact hnew _ _ hallows rfl _ (.inl (.held (by decide)))

end Heap

end TypeRegistry
