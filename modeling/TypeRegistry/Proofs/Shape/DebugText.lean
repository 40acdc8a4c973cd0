import TypeRegistry.Class.Store
import TypeRegistry.Proofs.Debug.Layout
import TypeRegistry.Proofs.Shape.Induction
import TypeRegistry.Shape.Describe

/-!
# The debug text shows every part of a type

Unlike the canonical text, the debug text of a type can be read back whatever names and paths are in
it, on one line and on many lines: texts and paths are quoted, and everything else is made of fixed
names and brackets. What does not show is which block a class is, so two types have one debug text
exactly when they are the same with names and flavors in place of classes.

## Main statements

* `Shape.describe_readable`: the debug text of a type can be read back.
* `Shape.eq_of_outline_eq`: a type is what its debug text shows.
* `Store.debugText_identifies`: types of one debug text, in either layout.
-/

namespace TypeRegistry

open Debug (IsName Node Outline)

/-! ### Legible trees -/

/-- The name of a passing mode is a name, and can stand at the front of a value. -/
theorem PassingMode.isName_name (m : PassingMode) : IsName m.name.toList := by
  cases m <;> decide

/-- The name of a flavor is a name. -/
theorem Flavor.isName_name (f : Flavor) : IsName f.name.toList := by
  cases f <;> decide

/-- The debug tree of a class can be read back, whatever the class is called. -/
theorem ClassView.describe_readable (c : ClassView) : c.describe.Readable := by
  apply Node.Readable.record (by decide) (List.cons_ne_nil _ _)
  · simp only [List.forall_mem_cons]
    decide
  · simp only [List.forall_mem_cons]
    exact ⟨.text _, .word c.flavor.isName_name, List.forall_mem_nil _⟩

/-- The debug tree of a module can be read back, whatever its name and path are. -/
theorem Module.describe_readable (m : Module SourcePath) : m.describe.Readable := by
  apply Node.Readable.record (by decide) (List.cons_ne_nil _ _)
  · simp only [List.forall_mem_cons]
    decide
  · simp only [List.forall_mem_cons]
    refine ⟨.option ?_, .option ?_, List.forall_mem_nil _⟩
    · intro node hnode
      obtain ⟨name, -, rfl⟩ := Option.map_eq_some_iff.1 hnode
      exact .text name
    · intro node hnode
      obtain ⟨path, -, rfl⟩ := Option.map_eq_some_iff.1 hnode
      exact .path path

/-- The debug tree of a parameter can be read back when that of its type can. -/
theorem Parameter.describe_readable {p : Parameter Node} (htype : p.type.Readable) :
    p.describe.Readable := by
  apply Node.Readable.record (by decide) (List.cons_ne_nil _ _)
  · simp only [List.forall_mem_cons]
    decide
  · simp only [List.forall_mem_cons]
    exact ⟨.text _, .word p.mode.isName_name, htype, List.forall_mem_nil _⟩

/-- The debug tree of a signature can be read back when those of its types can. -/
theorem Signature.describe_readable {s : Signature Node}
    (htypes : ∀ node ∈ s.types, node.Readable) : s.describe.Readable := by
  apply Node.Readable.record (by decide) (List.cons_ne_nil _ _)
  · simp only [List.forall_mem_cons]
    decide
  · simp only [List.forall_mem_cons]
    refine ⟨.option ?_, .list ?_, .option ?_, List.forall_mem_nil _⟩
    · intro node hnode
      obtain ⟨name, -, rfl⟩ := Option.map_eq_some_iff.1 hnode
      exact .text name
    · rw [List.forall_mem_map]
      exact fun p hp => Parameter.describe_readable (htypes _ (mem_types.2 (.inl ⟨p, hp, rfl⟩)))
    · exact fun node hnode => htypes node (mem_types.2 (.inr hnode))

/-- The debug text of a type can be read back. -/
theorem Shape.describe_readable (t : TypeView) : t.describe.Readable := by
  -- Signatures stand in function types and in overload sets alike.
  have hsignature : ∀ s : Signature TypeView, (∀ t ∈ s.types, t.describe.Readable) →
      (s.map describe).describe.Readable := by
    intro s hs
    apply Signature.describe_readable
    rw [Signature.types_map, List.forall_mem_map]
    exact hs
  induction t using Shape.induction with
  | unbound | unknown | never | any | typeVar =>
      rw [describe]
      exact .word (by decide)
  | module m =>
      rw [describe]
      exact .variant (by decide) m.describe_readable
  | function s ih =>
      rw [describe, describeTypes_eq_map]
      exact .variant (by decide) (hsignature s ih)
  | overloaded ss ih =>
      rw [describe, describeSignatures_eq_map]
      refine .variant (by decide) (.record (by decide) (List.cons_ne_nil _ _) ?_ ?_)
      · rw [List.forall_mem_singleton]
        exact (by decide : IsName "overloads".toList)
      · refine List.forall_mem_singleton.2 (.list ?_)
        rw [List.forall_mem_map]
        exact fun s hs => hsignature s (ih s hs)
  | union ts ih =>
      rw [describe, describeMembers_eq_map]
      refine .variant (by decide) (.record (by decide) (List.cons_ne_nil _ _) ?_ ?_)
      · rw [List.forall_mem_singleton]
        exact (by decide : IsName "types".toList)
      · refine List.forall_mem_singleton.2 (.list ?_)
        rw [List.forall_mem_map]
        exact ih
  | nominal c =>
      rw [describe]
      exact .variant (by decide) c.describe_readable

/-! ### What is read back -/

/-- Lists of one image are one list, when each element of the first is known by its image. -/
theorem eq_of_map_eq_of_forall {α β : Type} {f : α → β} {as bs : List α}
    (hf : ∀ a ∈ as, ∀ b, f a = f b → a = b) (h : as.map f = bs.map f) : as = bs := by
  induction as generalizing bs with
  | nil => exact (List.map_eq_nil_iff.1 h.symm).symm
  | cons a as ih =>
      rcases bs with _ | ⟨b, bs⟩
      · cases h
      · obtain ⟨hhead, htail⟩ := List.cons.inj h
        rw [hf a List.mem_cons_self b hhead,
          ih (fun c hc => hf c (List.mem_cons_of_mem _ hc)) htail]

/-- A class is known from its outline up to its block. -/
theorem ClassView.eq_of_outline_eq {c c' : ClassView}
    (h : c.describe.outline = c'.describe.outline) : c = c' := by
  have hfields := Node.outline_record_inj h
  simp only [List.map_cons, List.map_nil, List.cons.injEq, and_true] at hfields
  obtain ⟨hname, hflavor⟩ := hfields
  have hflavors : ∀ f g : Flavor, f.name = g.name → f = g := by
    rintro (_ | _) (_ | _) <;> decide
  cases c
  cases c'
  rw [mk.injEq]
  exact ⟨Node.outline_text_inj hname, hflavors _ _ (Node.outline_word_inj hflavor)⟩

/-- A module is known from its outline. -/
theorem Module.eq_of_outline_eq {m m' : Module SourcePath}
    (h : m.describe.outline = m'.describe.outline) : m = m' := by
  have hfields := Node.outline_record_inj h
  simp only [List.map_cons, List.map_nil, List.cons.injEq, and_true] at hfields
  obtain ⟨hname, hpath⟩ := hfields
  replace hname := Node.outline_option_inj hname
  replace hpath := Node.outline_option_inj hpath
  rw [Option.map_map, Option.map_map] at hname hpath
  cases m
  cases m'
  rw [mk.injEq]
  exact ⟨Option.map_injective (fun _ _ => Node.outline_text_inj) hname,
    Option.map_injective (fun _ _ => Node.outline_path_inj) hpath⟩

/-- A parameter is known from its outline when its type is. -/
theorem Parameter.eq_of_outline_eq {p p' : Parameter TypeView}
    (htype : ∀ u : TypeView, p.type.describe.outline = u.describe.outline → p.type = u)
    (h : (p.map Shape.describe).describe.outline = (p'.map Shape.describe).describe.outline) :
    p = p' := by
  have hfields := Node.outline_record_inj h
  simp only [List.map_cons, List.map_nil, List.cons.injEq, and_true] at hfields
  obtain ⟨hname, hmode, hsame⟩ := hfields
  -- No two modes have one name.
  have hmodes : ∀ m n : PassingMode, m.name = n.name → m = n := by
    rintro (_ | _ | _ | _ | _) (_ | _ | _ | _ | _) <;> decide
  cases p
  cases p'
  rw [mk.injEq]
  exact ⟨Node.outline_text_inj hname, hmodes _ _ (Node.outline_word_inj hmode), htype _ hsame⟩

/-- A signature is known from its outline when its types are. -/
theorem Signature.eq_of_outline_eq {s s' : Signature TypeView}
    (htypes : ∀ t ∈ s.types, ∀ u : TypeView, t.describe.outline = u.describe.outline → t = u)
    (h : (s.map Shape.describe).describe.outline = (s'.map Shape.describe).describe.outline) :
    s = s' := by
  have hfields := Node.outline_record_inj h
  simp only [map, List.map_cons, List.map_nil, List.cons.injEq, and_true] at hfields
  obtain ⟨hname, hparameters, hreturns⟩ := hfields
  replace hname := Node.outline_option_inj hname
  replace hparameters := Node.outline_list_inj hparameters
  replace hreturns := Node.outline_option_inj hreturns
  -- Name and return type are looked at as optional values, the parameters as a list.
  rw [Option.map_map, Option.map_map] at hname hreturns
  rw [List.map_map, List.map_map, List.map_map, List.map_map] at hparameters
  obtain ⟨name, ps, returns⟩ := s
  obtain ⟨name', ps', returns'⟩ := s'
  rw [mk.injEq]
  refine ⟨Option.map_injective (fun _ _ => Node.outline_text_inj) hname, ?_, ?_⟩
  · refine eq_of_map_eq_of_forall ?_ hparameters
    intro p hp p' hsame
    exact Parameter.eq_of_outline_eq (htypes _ (mem_types.2 (.inl ⟨p, hp, rfl⟩))) hsame
  · cases returns with
    -- A missing return type is not the outline of any type.
    | none => exact (Option.map_eq_none_iff.1 hreturns.symm).symm
    | some t =>
        obtain ⟨u, rfl, hsame⟩ := Option.map_eq_some_iff.1 hreturns.symm
        rw [htypes t (mem_types.2 (.inr rfl)) u hsame.symm]

namespace Shape

/-- The name at the front of a debug text is that of the kind. -/
theorem front_outline (t : TypeView) : t.describe.outline.front = t.kind.name.toList := by
  cases t <;> rfl

variable {t u : TypeView}

/-- The kind of a type is the word in front. -/
theorem kind_eq_of_outline_eq (h : t.describe.outline = u.describe.outline) : t.kind = u.kind := by
  have hkinds : ∀ k l : Kind, k.name = l.name → k = l := by
    intro k l
    cases k <;> cases l <;> decide
  have hfront := congrArg Outline.front h
  rw [front_outline, front_outline] at hfront
  exact hkinds _ _ (String.toList_inj.1 hfront)

/-- A type is what its debug text shows. -/
theorem eq_of_outline_eq (h : t.describe.outline = u.describe.outline) : t = u := by
  -- The kind is the word in front, so only types of one kind are left to compare; their parts are
  -- compared by the induction, which is for every other type.
  induction t using Shape.induction generalizing u with
  | unbound | unknown | never | any | typeVar =>
      have hkind := kind_eq_of_outline_eq h
      cases u <;> first | rfl | cases hkind
  | module m =>
      cases u with
      | module m' =>
          rw [describe, describe] at h
          rw [Module.eq_of_outline_eq (Node.outline_variant_inj h)]
      | _ => cases kind_eq_of_outline_eq h
  | function s ih =>
      cases u with
      | function s' =>
          rw [describe, describe, describeTypes_eq_map, describeTypes_eq_map] at h
          rw [Signature.eq_of_outline_eq (fun t ht u => ih t ht) (Node.outline_variant_inj h)]
      | _ => cases kind_eq_of_outline_eq h
  | overloaded ss ih =>
      cases u with
      | overloaded ss' =>
          rw [describe, describe, describeSignatures_eq_map, describeSignatures_eq_map] at h
          have hfields := Node.outline_record_inj (Node.outline_variant_inj h)
          have hsignatures := Node.outline_list_inj (List.cons.inj hfields).1
          rw [List.map_map, List.map_map] at hsignatures
          rw [eq_of_map_eq_of_forall ?_ hsignatures]
          intro s hs s' hsame
          exact Signature.eq_of_outline_eq (fun t ht u => ih s hs t ht) hsame
      | _ => cases kind_eq_of_outline_eq h
  | union ts ih =>
      cases u with
      | union us =>
          rw [describe, describe, describeMembers_eq_map, describeMembers_eq_map] at h
          have hfields := Node.outline_record_inj (Node.outline_variant_inj h)
          have hmembers := Node.outline_list_inj (List.cons.inj hfields).1
          rw [List.map_map, List.map_map] at hmembers
          rw [eq_of_map_eq_of_forall (fun t ht u => ih t ht) hmembers]
      | _ => cases kind_eq_of_outline_eq h
  | nominal c =>
      cases u with
      | nominal c' =>
          rw [describe, describe] at h
          rw [ClassView.eq_of_outline_eq (Node.outline_variant_inj h)]
      | _ => cases kind_eq_of_outline_eq h

end Shape

namespace Store

/-- The debug text of a union of a module, whose name has a quote and whose path has a byte that is
no character, and of the values of a class; and that of the latter on many lines. -/
example :
    let s : Store := ⟨#[{ name := "Point", table := {} }]⟩
    let geometry : Ty := .module { name := some "a\"b", path := some ⟨[0x2F, 0xFF]⟩ }
    let point : Ty := .nominal (ClassRef.toInstance (.ofBlock ⟨0⟩))
    (s.view (.union [geometry, point])).describe.plain =
      "Union(UnionType \x7b types: [" ++
        "Module(ModuleType \x7b mod_name: Some(\"a\\\"b\"), file_uri: Some(\"/\\xFF\") \x7d), " ++
        "Class(ClassType \x7b class_name: \"Point\", flavor: Instance \x7d)] \x7d)" ∧
    (s.view point).describe.pretty =
      "Class(\n    ClassType \x7b\n        class_name: \"Point\",\n" ++
        "        flavor: Instance,\n    \x7d,\n)" := by
  decide +kernel

end Store

end TypeRegistry
