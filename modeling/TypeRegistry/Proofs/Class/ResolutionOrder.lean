import TypeRegistry.Proofs.Class.Ownership

/-!
# Well-formed resolution orders

A block keeps a flag and a list of ancestors, and is itself the head of its order without being
kept in it. The two stay in step however the order was written: by a replacement, by extensions, by
a reset or when the block was made, and whatever was refused in between.

## Main statements

* `ClassBlock.Ordered`: an order that is not started has no ancestors, and a block is no ancestor of
  its own.
* `ClassBlock.Ordered.mroLength_eq`: the length of an order is the sum of what is kept of it.
* `Heap.Reachable.ordered`: every block is ordered in every reachable heap.
* `Heap.Reachable.mro_wellFormed`: the order that is read is empty or headed by its block, names the
  block nowhere else, and consists of class objects of blocks in memory.
-/

namespace TypeRegistry

/-- The flag and the ancestors of the block `id` fit together. -/
structure ClassBlock.Ordered (id : ClassId) (b : ClassBlock) : Prop where
  /-- An order that is not started has no ancestors. -/
  ancestors_eq_nil : b.linearized = false → b.ancestors = []
  /-- The block is not among its ancestors. -/
  not_mem_ancestors : id ∉ b.ancestors

/-- A new block is ordered: its ancestors are none, or were made before it. -/
theorem Birth.block_ordered {id : ClassId} {call : Call} {b : ClassBlock}
    (hbirth : Birth id call b) : b.Ordered id := by
  cases hbirth with
  | plain => exact ⟨fun _ => rfl, List.not_mem_nil⟩
  | @ordered name table ancestors _ _ hothers =>
      refine ⟨nofun, ?_⟩
      intro hmem
      obtain ⟨a, ha, heq⟩ := List.mem_map.1 hmem
      exact hothers a ha heq

/-- Every accepted call keeps its block ordered. -/
theorem Effect.block_ordered {c : ClassRef} {call : Call} {b b' : ClassBlock}
    (hc : call.receiver? = some c) (hb : b.Ordered c.block) (heffect : Effect b call b') :
    b'.Ordered c.block := by
  cases heffect with
  | clear => exact ⟨fun _ => rfl, List.not_mem_nil⟩
  -- Whoever writes ancestors raises the flag and has checked that the block is not among them.
  | reorder _ _ hrest =>
      cases hc
      refine ⟨nofun, ?_⟩
      intro hmem
      obtain ⟨a, ha, heq⟩ := List.mem_map.1 hmem
      exact hrest a ha heq
  | start => exact ⟨nofun, hb.not_mem_ancestors⟩
  | extend _ hstarted hentry =>
      cases hc
      -- The flag is up, so the first condition says nothing.
      refine ⟨fun hfresh => ?_, ?_⟩
      · rw [hstarted] at hfresh
        cases hfresh
      · intro hmem
        rcases List.mem_append.1 hmem with hmem | hmem
        · exact hb.not_mem_ancestors hmem
        · exact hentry (List.mem_singleton.1 hmem).symm
  | addBase | sealBlock => exact ⟨hb.ancestors_eq_nil, hb.not_mem_ancestors⟩

namespace ClassBlock

variable {id : ClassId} {b : ClassBlock}

/-- Every entry that is read is a class object. -/
theorem flavor_of_mem_mro {entry : ClassRef} (hentry : entry ∈ b.mro id) :
    entry.flavor = .instantiable := by
  obtain ⟨other, -, rfl⟩ := b.exists_block_of_mem_mro hentry
  rfl

/-- The order of an ordered block names the block at its head only. -/
theorem Ordered.mro_headed (hb : b.Ordered id) :
    b.mro id = [] ∨ ∃ rest, b.mro id = .ofBlock id :: rest ∧ ∀ entry ∈ rest, entry.block ≠ id := by
  rcases b.mro_eq_nil_or_cons id with hnil | hcons
  · exact .inl hnil
  · refine .inr ⟨_, hcons, ?_⟩
    intro entry hentry heq
    obtain ⟨other, hother, rfl⟩ := List.mem_map.1 hentry
    exact hb.not_mem_ancestors (heq ▸ hother)

/-- The length of the order of an ordered block is the number of its ancestors and the head, which
the flag counts. Of other blocks this fails: ancestors without the flag are not read. -/
theorem Ordered.mroLength_eq (hb : b.Ordered id) :
    b.mroLength = b.ancestors.length + b.linearized.toNat := by
  cases hstarted : b.linearized with
  | false =>
      rw [mroLength, hstarted, hb.ancestors_eq_nil hstarted, if_neg Bool.false_ne_true]
      rfl
  | true => rw [mroLength, if_pos hstarted, Bool.toNat_true]

end ClassBlock

namespace Heap

variable {h : Heap}

/-- Every block is ordered in every reachable heap. -/
theorem Reachable.ordered (hr : h.Reachable) (id : ClassId) : (h.store.block id).Ordered id := by
  refine hr.block_induction (P := fun id b => b.Ordered id) ?_ ?_ ?_ id
  · intro id
    exact ⟨fun _ => rfl, List.not_mem_nil⟩
  · intro id call b hbirth
    exact hbirth.block_ordered
  · intro c call b b' hc hb heffect
    exact heffect.block_ordered hc hb

/-- An entry of the order of a block in memory is in memory: the block owns it. -/
theorem Sound.mem_live_of_mem_mro (hs : h.Sound) {id : ClassId} (hlive : id ∈ h.live)
    {entry : ClassRef} (hentry : entry ∈ h.store.mro id) : entry.block ∈ h.live := by
  rcases ClassBlock.block_mem_of_mem_mro hentry with heq | hancestor
  · rw [heq]
    exact hlive
  · exact hs.owned_live id hlive _ (ClassBlock.mem_owned.2 (.inl hancestor))

/-- In every reachable heap the order of every block in memory is well-formed: nothing is kept of
one that is not started, the block is not kept among its ancestors, and what is read is empty or has
the block as its first entry and nowhere else. Every entry that is read is the class object of a
block in memory, and the length is that of what is read. -/
theorem Reachable.mro_wellFormed (hr : h.Reachable) {id : ClassId} (hlive : id ∈ h.live) :
    ((h.store.block id).linearized = false → (h.store.block id).ancestors = []) ∧
      id ∉ (h.store.block id).ancestors ∧
      (h.store.mro id = [] ∨
        ∃ rest, h.store.mro id = .ofBlock id :: rest ∧ ∀ entry ∈ rest, entry.block ≠ id) ∧
      (∀ entry ∈ h.store.mro id, entry.flavor = .instantiable ∧ entry.block ∈ h.live) ∧
      h.store.mroLength id = (h.store.mro id).length := by
  have hordered := hr.ordered id
  refine ⟨hordered.ancestors_eq_nil, hordered.not_mem_ancestors, hordered.mro_headed, ?_, ?_⟩
  · intro entry hentry
    exact ⟨ClassBlock.flavor_of_mem_mro hentry, hr.sound.mem_live_of_mem_mro hlive hentry⟩
  · exact (ClassBlock.length_mro _ id).symm

/-- Two classes that are each other's ancestors. The order of the first is reset and begun again
through an instance, a cycle and a foreign head are refused, and the handles on the second are
dropped. -/
def mutualAncestors : List Action :=
  let table := BodyScope.empty.toTable
  let first := ClassRef.ofBlock ⟨0⟩
  let second := ClassRef.ofBlock ⟨1⟩
  [.call (.create "First" table),
    .call (.createWithAncestors "Second" table [first]),
    .copy first .toInstance,
    .call (.replaceMro first [first, second]),
    .call (.replaceMro first []),
    .call (.extendMro first second),
    .call (.extendMro first.toInstance first.toInstance),
    .call (.extendMro first second),
    .call (.extendMro first first.toInstance),
    .drop second]

/-- The second class is held by the first one alone, and its order leads back to the first. -/
theorem mro_wellFormed_mutualAncestors :
    let h := empty.run mutualAncestors
    let id : ClassId := ⟨1⟩
    h.Reachable ∧ id ∈ h.live ∧ h.store.mro id = [.ofBlock id, .ofBlock ⟨0⟩] ∧
      ((h.store.block id).linearized = false → (h.store.block id).ancestors = []) ∧
      id ∉ (h.store.block id).ancestors ∧
      (h.store.mro id = [] ∨
        ∃ rest, h.store.mro id = .ofBlock id :: rest ∧ ∀ entry ∈ rest, entry.block ≠ id) ∧
      (∀ entry ∈ h.store.mro id, entry.flavor = .instantiable ∧ entry.block ∈ h.live) ∧
      h.store.mroLength id = (h.store.mro id).length := by
  intro h id
  have hadm : empty.Admits mutualAncestors := by decide
  have hr : h.Reachable := hadm.reachable
  have hlive : id ∈ h.live := by decide
  have hmro : h.store.mro id = [.ofBlock id, .ofBlock ⟨0⟩] := by decide
  exact ⟨hr, hlive, hmro, hr.mro_wellFormed hlive⟩

end Heap

end TypeRegistry
