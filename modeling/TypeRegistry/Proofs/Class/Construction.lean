import TypeRegistry.Proofs.Class.Ownership

/-!
# Three ways to build a resolution order

An order can be set as a whole, extended entry by entry, or given with the ancestors of a new block.
Where a whole order is checked before anything is written, entry by entry the first one only raises
the flag and every later one is checked on its own. The three agree: they accept the same lists,
leave the same store, and refuse with the same error.

## Main statements

* `Store.extendEach_started`: extending a started order is replacing it by the longer one.
* `Store.replaceMro_append`: replacing an order and extending it is replacing it by both lists.
* `Store.createWithAncestors_eq_stepwise`: making a block with ancestors is making it and extending
  its order by itself and by each of them.
* `Heap.Reachable.constructions_agree`: so it is in every reachable heap.
-/

namespace TypeRegistry

/-- The outcome of an operation and, unless it is refused, of the one that follows it. -/
def Outcome.andThen {α β : Type} (o : Outcome α) (next : α → Store → Outcome β) : Outcome β :=
  match o.result with
  | .error e => ⟨.error e, o.events, o.store⟩
  | .ok a =>
    let later := next a o.store
    ⟨later.result, o.events ++ later.events, later.store⟩

namespace Outcome

variable {α β : Type} {next : α → Store → Outcome β} {events : List Event} {s : Store}

/-- What comes next starts from the store that was left, and its events come after. -/
@[simp]
theorem andThen_ok (a : α) :
    (⟨.ok a, events, s⟩ : Outcome α).andThen next =
      ⟨(next a s).result, events ++ (next a s).events, (next a s).store⟩ := rfl

end Outcome

namespace Store

variable {s : Store} {id : ClassId} {head : ClassRef} {rest : List ClassRef}

/-- Extends the order of a block by each entry in turn, up to the first that is refused. -/
def extendEach (s : Store) (id : ClassId) : List ClassRef → Outcome Unit
  | [] => ⟨.ok (), [], s⟩
  | entry :: rest => (s.extendMro id entry).andThen fun _ s => s.extendEach id rest

/-- Makes a class and extends its order, which is empty, by the class itself and each of the
ancestors. Without ancestors the order stays empty. -/
def createStepwise (s : Store) (name : String) (table : SymbolTable)
    (ancestors : List ClassRef) : Outcome ClassRef :=
  (s.create name table).andThen fun c s =>
    if ancestors = [] then ⟨.ok c, [], s⟩
    else (s.extendEach c.block (c :: ancestors)).map fun _ => c

/-- An order that is accepted is empty, or headed by its block and followed by others. -/
theorem others_of_replaceMro (hs : s.isSealed id = false)
    (hok : (s.replaceMro id (head :: rest)).result = .ok ()) :
    head.block = id ∧ ∀ a ∈ rest, a.block ≠ id := by
  -- Otherwise the list would be refused for its head or for a later entry.
  by_cases hhead : head.block = id
  · refine ⟨hhead, ?_⟩
    intro a ha heq
    rw [replaceMro_of_own hs hhead ⟨a, ha, heq⟩] at hok
    cases hok
  · rw [replaceMro_of_foreign hs hhead] at hok
    cases hok

/-- Extending a started order entry by entry does what replacing it by the longer order does. -/
theorem extendEach_started (hid : s.Contains id) (hs : s.isSealed id = false)
    (hhead : head.block = id) (hrest : ∀ a ∈ rest, a.block ≠ id) (entries : List ClassRef) :
    let started :=
      s.set id { s.block id with linearized := true, ancestors := rest.map (·.block) }
    (started.extendEach id entries).result = (s.replaceMro id (head :: rest ++ entries)).result ∧
      ((s.replaceMro id (head :: rest ++ entries)).result = .ok () →
        (started.extendEach id entries).store =
          (s.replaceMro id (head :: rest ++ entries)).store) := by
  -- The accepted entries move to the started part one by one, so `rest` grows.
  induction entries generalizing rest with
  | nil =>
      rw [List.append_nil, replaceMro_of_others hs hhead hrest]
      exact ⟨rfl, fun _ => rfl⟩
  | cons entry entries ih =>
      intro started
      have hblock : started.block id =
          { s.block id with linearized := true, ancestors := rest.map (·.block) } :=
        block_set_self hid _
      have hopen : started.isSealed id = false := by
        rw [isSealed, hblock]
        exact hs
      have hstarted : (started.block id).linearized = true := by rw [hblock]
      rw [extendEach]
      by_cases hentry : entry.block = id
      -- The first entry of the block itself is refused here, and in the whole list.
      · have hname : started.className id = s.className id := className_set (by rfl) id
        have hown : ∃ a ∈ rest ++ entry :: entries, a.block = id := ⟨entry, by simp, hentry⟩
        rw [extendMro_of_own hopen hstarted hentry, List.cons_append,
          replaceMro_of_own hs hhead hown, hname]
        refine ⟨rfl, ?_⟩
        intro hok
        cases hok
      -- Any other entry is accepted, and the rest goes on from a longer order.
      · have hnext : ∀ a ∈ rest ++ [entry], a.block ≠ id := by
          intro a ha
          rcases List.mem_append.1 ha with ha | ha
          · exact hrest a ha
          · rw [List.mem_singleton.1 ha]
            exact hentry
        have hlonger := ih hnext
        rw [List.map_append, List.cons_append, List.append_assoc] at hlonger
        rw [extendMro_of_other hopen hstarted hentry, hblock, set_set]
        exact hlonger

/-- Extending an order that was reset does what replacing it does: the first entry is checked as the
head, and starts the order. -/
theorem extendEach_reset (hid : s.Contains id) (hs : s.isSealed id = false)
    (entries : List ClassRef) :
    let reset := s.set id { s.block id with linearized := false, ancestors := [] }
    (reset.extendEach id entries).result = (s.replaceMro id entries).result ∧
      ((s.replaceMro id entries).result = .ok () →
        (reset.extendEach id entries).store = (s.replaceMro id entries).store) := by
  intro reset
  rcases entries with _ | ⟨entry, entries⟩
  · rw [replaceMro_nil hs]
    exact ⟨rfl, fun _ => rfl⟩
  have hblock : reset.block id = { s.block id with linearized := false, ancestors := [] } :=
    block_set_self hid _
  have hopen : reset.isSealed id = false := by
    rw [isSealed, hblock]
    exact hs
  have hfresh : (reset.block id).linearized = false := by rw [hblock]
  rw [extendEach]
  -- As the head the block itself begins the order, which the other entries extend; another block is
  -- refused in both ways.
  by_cases hentry : entry.block = id
  · rw [extendMro_of_head hopen hfresh hentry, hblock, set_set]
    exact extendEach_started hid hs hentry (List.forall_mem_nil _) entries
  · have hname (other : ClassId) : reset.className other = s.className other :=
      className_set (by rfl) other
    rw [extendMro_of_foreign hopen hfresh hentry, replaceMro_of_foreign hs hentry, hname, hname]
    refine ⟨rfl, ?_⟩
    intro hok
    cases hok

/-- Replacing an order by a list that is accepted and extending it by another gives what replacing
it by both gives: the same result, be it an error, and on success the same store. -/
theorem replaceMro_append (hid : s.Contains id) (hs : s.isSealed id = false)
    {first : List ClassRef} (hfirst : (s.replaceMro id first).result = .ok ())
    (entries : List ClassRef) :
    let stepwise := (s.replaceMro id first).andThen fun _ s => s.extendEach id entries
    stepwise.result = (s.replaceMro id (first ++ entries)).result ∧
      ((s.replaceMro id (first ++ entries)).result = .ok () →
        stepwise.store = (s.replaceMro id (first ++ entries)).store) := by
  -- An accepted list is empty and resets the order, or starts it.
  rcases first with _ | ⟨head, rest⟩
  · rw [replaceMro_nil hs]
    exact extendEach_reset hid hs entries
  · obtain ⟨hhead, hrest⟩ := others_of_replaceMro hs hfirst
    rw [replaceMro_of_others hs hhead hrest]
    exact extendEach_started hid hs hhead hrest entries

/-- Making a block with existing ancestors succeeds, and leaves the store that making it and
extending its order entry by entry leaves. -/
theorem createWithAncestors_eq_stepwise (name : String) {table : SymbolTable}
    {ancestors : List ClassRef} (htable : table.missingPart? = none)
    (hancestors : ∀ a ∈ ancestors, s.Contains a.block) :
    (s.createWithAncestors name table ancestors).result = .ok (.ofBlock s.nextId) ∧
      (s.createStepwise name table ancestors).result =
        (s.createWithAncestors name table ancestors).result ∧
      (s.createStepwise name table ancestors).store =
        (s.createWithAncestors name table ancestors).store := by
  rw [createStepwise, create_of_complete name htable]
  by_cases hne : ancestors = []
  · subst hne
    rw [createWithAncestors_nil, create_of_complete name htable]
    exact ⟨rfl, rfl, rfl⟩
  have hothers : ∀ a ∈ ancestors, a.block ≠ s.nextId := fun a ha => ne_nextId (hancestors a ha)
  have hblock := block_push_nextId s { name, table }
  have hopen : (s.push { name, table }).isSealed s.nextId = false := by rw [isSealed, hblock]
  have hcontains := contains_push_nextId s { name, table }
  -- A new block is as good as one whose order was reset.
  have hhead : (ClassRef.ofBlock s.nextId).block = s.nextId := rfl
  have hwhole := replaceMro_of_others hopen hhead hothers
  have hstepwise := extendEach_reset hcontains hopen (.ofBlock s.nextId :: ancestors)
  have hreset : (s.push { name, table }).set s.nextId
      { (s.push { name, table }).block s.nextId with linearized := false, ancestors := [] } =
      s.push { name, table } := by
    rw [hblock, set_push_nextId]
  rw [hreset, hwhole, hblock, set_push_nextId] at hstepwise
  obtain ⟨hresult, hstore⟩ := hstepwise
  rw [createWithAncestors_of_complete name htable hne hothers, Outcome.andThen_ok, if_neg hne]
  refine ⟨rfl, ?_, hstore rfl⟩
  exact congrArg (Except.map fun _ => ClassRef.ofBlock s.nextId) hresult

end Store

namespace Heap

variable {h : Heap}

/-- In every reachable heap the three ways to build a resolution order agree. For an open block and
a list that it takes as its order, setting the order and extending it by any further entries up to
the first that is refused gives what setting it to both lists gives: both succeed and leave the same
store, or both fail with the same error. And making a class over a complete scope with ancestors in
memory always succeeds, and leaves what making the class and extending its order leaves. -/
theorem Reachable.constructions_agree (hr : h.Reachable) :
    (∀ id ∈ h.live, h.store.isSealed id = false → ∀ first entries : List ClassRef,
      (h.store.replaceMro id first).result = .ok () →
        let stepwise := (h.store.replaceMro id first).andThen fun _ s => s.extendEach id entries
        let whole := h.store.replaceMro id (first ++ entries)
        stepwise.result = whole.result ∧
          (whole.result = .ok () → stepwise.store = whole.store)) ∧
    ∀ (name : String) (table : SymbolTable) (ancestors : List ClassRef),
      table.missingPart? = none → (∀ a ∈ ancestors, a.block ∈ h.live) →
        let made := h.store.createWithAncestors name table ancestors
        let stepwise := h.store.createStepwise name table ancestors
        made.result = .ok (.ofBlock h.store.nextId) ∧ stepwise.result = made.result ∧
          stepwise.store = made.store := by
  refine ⟨?_, ?_⟩
  · intro id hlive hopen first entries hfirst
    exact Store.replaceMro_append (hr.sound.contains_of_live id hlive) hopen hfirst entries
  · intro name table ancestors htable hlive
    exact Store.createWithAncestors_eq_stepwise name htable fun a ha =>
      hr.sound.contains_of_live _ (hlive a ha)

/-- Two classes without orders. -/
def twoClasses : List Action :=
  let table := BodyScope.empty.toTable
  [.call (.create "First" table), .call (.create "Second" table)]

/-- An order that names its block again as an instance is refused in both ways, with one error. -/
theorem constructions_agree_twoClasses :
    let h := empty.run twoClasses
    let first := ClassRef.ofBlock ⟨0⟩
    let second := ClassRef.ofBlock ⟨1⟩
    h.Reachable ∧ first.block ∈ h.live ∧ h.store.isSealed first.block = false ∧
      (h.store.replaceMro first.block [first.toInstance, second]).result = .ok () ∧
      ((h.store.replaceMro first.block [first.toInstance, second]).andThen fun _ s =>
          s.extendEach first.block [second, first.toInstance]).result =
        (h.store.replaceMro first.block
          [first.toInstance, second, second, first.toInstance]).result ∧
      (h.store.replaceMro first.block [first.toInstance, second, second, first.toInstance]).result =
        .error (.ownAncestor "First") := by
  have hadm : empty.Admits twoClasses := by decide
  have hr := hadm.reachable
  have hagree := hr.constructions_agree.1 ⟨0⟩ (by decide) (by decide)
    [ClassRef.toInstance (.ofBlock ⟨0⟩), .ofBlock ⟨1⟩]
    [.ofBlock ⟨1⟩, ClassRef.toInstance (.ofBlock ⟨0⟩)] rfl
  exact ⟨hr, by decide, by decide, rfl, hagree.1, rfl⟩

end Heap

end TypeRegistry
