import Mathlib.Data.List.Basic

/-!
# Reading texts back

A text is made of the texts of its parts, one after the other. It can be read back when each part
can be told off the front of any text that begins with it. A name is told by the character that
ends it, which it does not contain itself, and a list is told by what stands between its items and
what comes after the last one.

## Main definitions and statements

* `Text.ReadsOff`: an item is told off the front of a text.
* `Text.readsOff_flatMap`, `Text.readsOff_joined`: a list of items, without a separator or with
  one, is told off when its items are.
-/

namespace TypeRegistry.Text

variable {α : Type} {text : α → List Char} {Ok : α → Prop} {sep : List Char}

/-- A character that two names lack ends them at the same place. -/
theorem eq_of_append_cons_eq {c : Char} {xs ys x y : List Char} (hx : c ∉ xs) (hy : c ∉ ys)
    (h : xs ++ c :: x = ys ++ c :: y) : xs = ys ∧ x = y := by
  -- Where one name goes on and the other ends, the former would have the character.
  induction xs generalizing ys with
  | nil =>
      rcases ys with _ | ⟨d, ys⟩
      · exact ⟨rfl, (List.cons.inj h).2⟩
      · exact absurd (List.mem_cons.2 (.inl (List.cons.inj h).1)) hy
  | cons d xs ih =>
      rcases ys with _ | ⟨e, ys⟩
      · exact absurd (List.mem_cons.2 (.inl (List.cons.inj h).1.symm)) hx
      · obtain ⟨rfl, htail⟩ := List.cons.inj h
        obtain ⟨rfl, hrest⟩ := ih (fun hc => hx (List.mem_cons_of_mem _ hc))
          (fun hc => hy (List.mem_cons_of_mem _ hc)) htail
        exact ⟨rfl, hrest⟩

/-- Two names end at the same place where they are all the characters of one sort at the front. -/
theorem eq_of_append_eq_of_forall {p : Char → Prop} {xs ys x y : List Char}
    (hxs : ∀ c ∈ xs, p c) (hys : ∀ c ∈ ys, p c) (hx : ∀ c, x.head? = some c → ¬p c)
    (hy : ∀ c, y.head? = some c → ¬p c) (h : xs ++ x = ys ++ y) : xs = ys ∧ x = y := by
  -- Where one name goes on and the other ends, what follows the latter begins with a character of
  -- the sort.
  induction xs generalizing ys with
  | nil =>
      rcases ys with _ | ⟨d, ys⟩
      · exact ⟨rfl, h⟩
      · rw [List.nil_append] at h
        exact absurd (hys d List.mem_cons_self) (hx d (by rw [h]; rfl))
  | cons c xs ih =>
      rcases ys with _ | ⟨d, ys⟩
      · rw [List.nil_append] at h
        exact absurd (hxs c List.mem_cons_self) (hy c (by rw [← h]; rfl))
      · obtain ⟨rfl, htail⟩ := List.cons.inj h
        obtain ⟨rfl, hrest⟩ := ih (fun d hd => hxs d (List.mem_cons_of_mem _ hd))
          (fun d hd => hys d (List.mem_cons_of_mem _ hd)) htail
        exact ⟨rfl, hrest⟩

/-- The text of `a` is told off the front of a text: no other item that is `Ok` stands there too,
provided that what comes after it is one of the texts that may follow. -/
def ReadsOff (text : α → List Char) (Ok : α → Prop) (Follows : List Char → Prop) (a : α) : Prop :=
  ∀ b x y, Ok b → Follows x → Follows y → text a ++ x = text b ++ y → a = b ∧ x = y

/-! ### Lists without a separator -/

/-- Items that are told off whatever comes after them make a list that is told off, when no item
begins what may end the list. -/
theorem readsOff_flatMap {Ends : List Char → Prop} {items : List α}
    (hitems : ∀ a ∈ items, ReadsOff text Ok (fun _ => True) a) (hok : ∀ a ∈ items, Ok a)
    (hsome : ∀ a x, Ok a → ¬Ends (text a ++ x)) :
    ReadsOff (List.flatMap text) (fun bs => ∀ b ∈ bs, Ok b) Ends items := by
  intro bs x y hbs hx hy h
  -- A list that ends where the other goes on has an item where it may end.
  induction items generalizing bs with
  | nil =>
      rcases bs with _ | ⟨b, bs⟩
      · exact ⟨rfl, h⟩
      · rw [List.flatMap_nil, List.nil_append, List.flatMap_cons, List.append_assoc] at h
        exact absurd (h ▸ hx) (hsome b _ (hbs b List.mem_cons_self))
  | cons a items ih =>
      rcases bs with _ | ⟨b, bs⟩
      · rw [List.flatMap_nil, List.nil_append, List.flatMap_cons, List.append_assoc] at h
        exact absurd (h ▸ hy) (hsome a _ (hok a List.mem_cons_self))
      · rw [List.flatMap_cons, List.flatMap_cons, List.append_assoc, List.append_assoc] at h
        obtain ⟨rfl, hrest⟩ := hitems a List.mem_cons_self b _ _ (hbs b List.mem_cons_self)
          trivial trivial h
        obtain ⟨rfl, hends⟩ := ih (fun c hc => hitems c (List.mem_cons_of_mem _ hc))
          (fun c hc => hok c (List.mem_cons_of_mem _ hc)) bs
          (fun c hc => hbs c (List.mem_cons_of_mem _ hc)) hrest
        exact ⟨rfl, hends⟩

/-! ### Lists with a separator -/

/-- The text of items with a separator between them. -/
def joined (sep : List Char) (text : α → List Char) (items : List α) : List Char :=
  sep.intercalate (items.map text)

@[simp]
theorem joined_nil : joined sep text [] = [] := rfl

@[simp]
theorem joined_singleton (a : α) : joined sep text [a] = text a := by
  simp [joined]

theorem joined_cons_cons (a b : α) (items : List α) :
    joined sep text (a :: b :: items) = text a ++ (sep ++ joined sep text (b :: items)) := by
  simp [joined, List.intercalate_cons_cons]

/-- The first item stands at the front. -/
theorem exists_joined_cons (sep : List Char) (text : α → List Char) (a : α) (items : List α) :
    ∃ rest, joined sep text (a :: items) = text a ++ rest := by
  rcases items with _ | ⟨b, items⟩
  · exact ⟨[], by simp⟩
  · exact ⟨_, joined_cons_cons a b items⟩

/-- Between two lists of items that are not empty stands one more separator. -/
theorem joined_append {items later : List α} (hitems : items ≠ []) (hlater : later ≠ []) :
    joined sep text (items ++ later) =
      joined sep text items ++ (sep ++ joined sep text later) := by
  obtain ⟨b, later, rfl⟩ := List.exists_cons_of_ne_nil hlater
  induction items with
  | nil => exact absurd rfl hitems
  | cons a items ih =>
      rcases items with _ | ⟨c, items⟩
      · simp [joined_cons_cons]
      · have htail := ih (List.cons_ne_nil c items)
        simp only [List.cons_append, joined_cons_cons, List.append_assoc] at htail ⊢
        rw [htail]

/-- Joining what is joined with the same separator already is joining all of it. -/
theorem joined_joined {β : Type} {parts : β → List α} {items : List β}
    (hparts : ∀ b ∈ items, parts b ≠ []) :
    joined sep (fun b => joined sep text (parts b)) items =
      joined sep text (items.flatMap parts) := by
  induction items with
  | nil => rfl
  | cons b items ih =>
      have hhead : parts b ≠ [] := hparts b List.mem_cons_self
      have htail := ih fun c hc => hparts c (List.mem_cons_of_mem _ hc)
      rcases items with _ | ⟨c, items⟩
      · simp
      · -- The later items have parts too, so that a separator stands before them.
        have hrest : (c :: items).flatMap parts ≠ [] := by
          have hc := hparts c (by simp)
          simp [hc]
        have hall : (b :: c :: items).flatMap parts = parts b ++ (c :: items).flatMap parts :=
          List.flatMap_cons
        rw [joined_cons_cons, htail, hall, joined_append hhead hrest]

/-- A list is told off when its items are. Between two items stands the separator, which no text
that may end the list begins with, and no item begins such a text either. -/
theorem readsOff_joined {Follows Ends : List Char → Prop} {items : List α}
    (hitems : ∀ a ∈ items, ReadsOff text Ok Follows a) (hok : ∀ a ∈ items, Ok a)
    (hsep : ∀ x, Follows (sep ++ x)) (hends : ∀ x, Ends x → Follows x)
    (hmore : ∀ x, ¬Ends (sep ++ x)) (hsome : ∀ a x, Ok a → ¬Ends (text a ++ x)) :
    ReadsOff (joined sep text) (fun bs => ∀ b ∈ bs, Ok b) Ends items := by
  intro bs x y hbs hx hy h
  -- An empty list is told by its end, which no item begins.
  induction items generalizing bs with
  | nil =>
      rcases bs with _ | ⟨b, bs⟩
      · exact ⟨rfl, h⟩
      · obtain ⟨rest, hrest⟩ := exists_joined_cons sep text b bs
        rw [hrest, List.append_assoc] at h
        rw [joined_nil, List.nil_append] at h
        exact absurd (h ▸ hx) (hsome b _ (hbs b List.mem_cons_self))
  | cons a items ih =>
      rcases bs with _ | ⟨b, bs⟩
      · obtain ⟨rest, hrest⟩ := exists_joined_cons sep text a items
        rw [hrest, List.append_assoc, joined_nil, List.nil_append] at h
        exact absurd (h ▸ hy) (hsome a _ (hok a List.mem_cons_self))
      have hreads := hitems a List.mem_cons_self b
      have hb := hbs b List.mem_cons_self
      -- After the first item either list goes on with the separator or ends.
      rcases items with _ | ⟨a', items⟩ <;> rcases bs with _ | ⟨b', bs⟩
      · rw [joined_singleton, joined_singleton] at h
        obtain ⟨rfl, hrest⟩ := hreads x y hb (hends x hx) (hends y hy) h
        exact ⟨rfl, hrest⟩
      · rw [joined_singleton, joined_cons_cons, List.append_assoc, List.append_assoc] at h
        obtain ⟨-, hrest⟩ := hreads x _ hb (hends x hx) (hsep _) h
        exact absurd (hrest ▸ hx) (hmore _)
      · rw [joined_singleton, joined_cons_cons, List.append_assoc, List.append_assoc] at h
        obtain ⟨-, hrest⟩ := hreads _ y hb (hsep _) (hends y hy) h
        exact absurd (hrest ▸ hy) (hmore _)
      · simp only [joined_cons_cons, List.append_assoc] at h
        obtain ⟨rfl, hrest⟩ := hreads _ _ hb (hsep _) (hsep _) h
        have htail := ih (fun c hc => hitems c (List.mem_cons_of_mem _ hc))
          (fun c hc => hok c (List.mem_cons_of_mem _ hc)) (b' :: bs)
          (fun c hc => hbs c (List.mem_cons_of_mem _ hc)) (List.append_cancel_left hrest)
        rw [htail.1]
        exact ⟨rfl, htail.2⟩

end TypeRegistry.Text
