import TypeRegistry.Class.Store
import TypeRegistry.Proofs.Shape.NormalForm

/-!
# The canonical text is unambiguous

Types nest without brackets around unions, yet the normal form of a type can be read off its text,
as long as no name contains the mark that ends it: after an alternative comes a bar or the end of
the type, after a parameter a comma or the closing bracket, and after a return type the closing
angle. So two types have one text exactly when they have one normal form.

## Main definitions and statements

* `Atom.Legible`, `Shape.Legible`: the names in an atom and in a type can be read back.
* `Atom.Legible.readsOff`: a legible atom is told off the front of a text.
* `Store.canonicalText_identifies`: the text of a type is that of its normal form, and legible types
  of one text have one normal form.
-/

namespace TypeRegistry

open Text (ReadsOff)

/-- The opening marks of two kinds are told apart. -/
theorem Kind.eq_of_opening_prefix {k l : Kind} (h : k.opening.toList <+: l.opening.toList) :
    k = l := by
  revert h
  cases k <;> cases l <;> decide

/-- Every opening mark begins with an angle. -/
theorem Kind.exists_opening (k : Kind) : ∃ rest, k.opening.toList = '<' :: rest := by
  cases k <;> exact ⟨_, rfl⟩

namespace Atom

variable {a b : Atom} {as : List Atom} {x y : List Char}

/-- The name of a parameter ends before the colon, and is not taken for the end of the list. -/
def LegibleName (name : String) : Prop :=
  ':' ∉ name.toList ∧ name.toList.head? ≠ some ')'

/-- No name in the text of an atom contains the mark that ends it, and no function has the name that
stands for a missing one. -/
inductive Legible : Atom → Prop
  | unbound : Legible unbound
  | unknown : Legible unknown
  | never : Legible never
  | any : Legible any
  | typeVar : Legible typeVar
  | emptyUnion : Legible emptyUnion
  | module {label : Option String} (hlabel : ∀ l, label = some l → '>' ∉ l.toList) :
      Legible (module label)
  | function {name : Option String} {ps : List (String × List Atom)} {returns : Option (List Atom)}
      (hname : ∀ n, name = some n → '(' ∉ n.toList ∧ n ≠ "<anonymous>")
      (hnames : ∀ p ∈ ps, LegibleName p.1) (htypes : ∀ p ∈ ps, ∀ a ∈ p.2, Legible a)
      (hreturns : ∀ as, returns = some as → ∀ a ∈ as, Legible a) :
      Legible (function name ps returns)
  | overloaded {size : Nat} : Legible (overloaded size)
  | nominal {name : String} (hname : '>' ∉ name.toList) : Legible (nominal name)

/-- What may come after a type: nothing, or what separates or closes. -/
def EndsType (x : List Char) : Prop :=
  ∀ c, x.head? = some c → c = ',' ∨ c = ')' ∨ c = '>'

/-- Atoms of one text are of one kind. -/
theorem kind_eq_of_text_append (h : a.text ++ x = b.text ++ y) :
    a.kind = b.kind ∧ a.body ++ x = b.body ++ y := by
  rw [text, text, List.append_assoc, List.append_assoc] at h
  have hleft : a.kind.opening.toList <+: b.kind.opening.toList ++ (b.body ++ y) :=
    h ▸ List.prefix_append _ _
  have hright : b.kind.opening.toList <+: b.kind.opening.toList ++ (b.body ++ y) :=
    List.prefix_append _ _
  -- Of two openings of one text, one begins the other.
  have hkind : a.kind = b.kind := by
    rcases List.prefix_or_prefix_of_prefix hleft hright with hab | hba
    · exact Kind.eq_of_opening_prefix hab
    · exact (Kind.eq_of_opening_prefix hba).symm
  rw [hkind] at h
  exact ⟨hkind, List.append_cancel_left h⟩

/-- Every atom begins with an angle, so none begins what may come after a type. -/
theorem not_endsType_text_append (a : Atom) (x : List Char) : ¬EndsType (a.text ++ x) := by
  obtain ⟨rest, hopening⟩ := a.kind.exists_opening
  have hhead : (a.text ++ x).head? = some '<' := by
    rw [text, hopening]
    rfl
  intro hends
  have := hends '<' hhead
  revert this
  decide

/-- A type is told off when its alternatives are. -/
theorem readsOff_typeText (has : ∀ a ∈ as, a.Legible)
    (hreads : ∀ a ∈ as, ReadsOff text Legible (fun _ => True) a) :
    ReadsOff typeText (fun bs => ∀ b ∈ bs, b.Legible) EndsType as := by
  apply Text.readsOff_joined hreads has
  · exact fun _ => trivial
  · exact fun _ _ => trivial
  · -- A separator begins with a blank, which ends no type.
    intro x hends
    have := hends ' ' rfl
    revert this
    decide
  · exact fun a x _ => not_endsType_text_append a x

/-- A parameter has a legible name and a type of legible alternatives. -/
def LegibleParameter (p : String × List Atom) : Prop :=
  LegibleName p.1 ∧ ∀ a ∈ p.2, a.Legible

/-- A parameter is told off when its type is: the colon ends its name. -/
theorem readsOff_parameterText {p : String × List Atom} (hp : LegibleParameter p)
    (hreads : ∀ a ∈ p.2, ReadsOff text Legible (fun _ => True) a) :
    ReadsOff parameterText LegibleParameter EndsType p := by
  intro q x y hq hx hy h
  obtain ⟨name, as⟩ := p
  obtain ⟨name', bs⟩ := q
  simp only [parameterText, List.append_assoc, List.cons_append] at h
  obtain ⟨hname, htype⟩ := Text.eq_of_append_cons_eq hp.1.1 hq.1.1 h
  obtain rfl : name = name' := String.toList_inj.1 hname
  obtain ⟨rfl, hrest⟩ :=
    readsOff_typeText hp.2 hreads bs x y hq.2 hx hy (List.cons.inj htype).2
  exact ⟨rfl, hrest⟩

/-- A parameter is not taken for the closing bracket. -/
theorem head?_parameterText_append {p : String × List Atom} (hp : LegibleParameter p) :
    (parameterText p ++ x).head? ≠ some ')' := by
  obtain ⟨name, as⟩ := p
  have hhead := hp.1.2
  rw [parameterText]
  cases hname : name.toList with
  | nil => simp
  | cons c cs => simpa [hname] using hhead

/-- A list of parameters is told off when the types in it are: the bracket closes it. -/
theorem readsOff_parameters {ps : List (String × List Atom)}
    (hps : ∀ p ∈ ps, LegibleParameter p)
    (hreads : ∀ p ∈ ps, ∀ a ∈ p.2, ReadsOff text Legible (fun _ => True) a) :
    ReadsOff (Text.joined comma parameterText) (fun qs => ∀ q ∈ qs, LegibleParameter q)
      (fun x => x.head? = some ')') ps := by
  -- A comma or the closing bracket ends each type, and no parameter begins with the bracket.
  apply Text.readsOff_joined (fun p hp => readsOff_parameterText (hps p hp) (hreads p hp)) hps
  · rintro x c ⟨⟩
    exact .inl rfl
  · rintro x hx c hc
    rw [hx] at hc
    cases hc
    exact .inr (.inl rfl)
  · intro x hx
    cases hx
  · exact fun p x hp => head?_parameterText_append hp

/-- The end of a function is told off when its return type is. -/
theorem readsOff_returnText {returns : Option (List Atom)}
    (hlegible : ∀ as, returns = some as → ∀ a ∈ as, a.Legible)
    (hreads : ∀ as, returns = some as → ∀ a ∈ as, ReadsOff text Legible (fun _ => True) a) :
    ReadsOff returnText (fun later => ∀ as, later = some as → ∀ a ∈ as, a.Legible)
      (fun _ => True) returns := by
  intro later x y hlater _ _ h
  -- A return type begins with the arrow, and its lack shows as the closing angle.
  cases returns with
  | none =>
      cases later with
      | none => exact ⟨rfl, (List.cons.inj h).2⟩
      | some bs =>
          rw [returnText_some] at h
          cases (List.cons.inj h).1
  | some as =>
      cases later with
      | none =>
          rw [returnText_some] at h
          cases (List.cons.inj h).1
      | some bs =>
          simp only [returnText_some, List.append_assoc] at h
          have hends (z : List Char) : EndsType (['>'] ++ z) := by
            rintro c ⟨⟩
            exact .inr (.inr rfl)
          obtain ⟨rfl, hrest⟩ := readsOff_typeText (hlegible as rfl) (hreads as rfl) bs _ _
            (hlater bs rfl) (hends x) (hends y) (List.append_cancel_left h)
          exact ⟨rfl, (List.cons.inj hrest).2⟩

/-- The names of two functions, one of which may be missing, are told apart by their texts up to the
opening bracket. -/
theorem eq_of_name_append {name name' : Option String}
    (hname : ∀ n, name = some n → '(' ∉ n.toList ∧ n ≠ "<anonymous>")
    (hname' : ∀ n, name' = some n → '(' ∉ n.toList ∧ n ≠ "<anonymous>")
    (h : (name.getD "<anonymous>").toList ++ '(' :: x =
      (name'.getD "<anonymous>").toList ++ '(' :: y) : name = name' ∧ x = y := by
  have hanonymous : '(' ∉ "<anonymous>".toList := by decide
  -- A missing name is written as a placeholder, which no legible name is.
  cases name with
  | none =>
      cases name' with
      | none => exact ⟨rfl, (Text.eq_of_append_cons_eq hanonymous hanonymous h).2⟩
      | some n =>
          obtain ⟨hbracket, hne⟩ := hname' n rfl
          have htext := (Text.eq_of_append_cons_eq hanonymous hbracket h).1
          exact absurd (String.toList_inj.1 htext).symm hne
  | some n =>
      obtain ⟨hbracket, hne⟩ := hname n rfl
      cases name' with
      | none =>
          have htext := (Text.eq_of_append_cons_eq hbracket hanonymous h).1
          exact absurd (String.toList_inj.1 htext) hne
      | some n' =>
          obtain ⟨htext, hrest⟩ := Text.eq_of_append_cons_eq hbracket (hname' n' rfl).1 h
          exact ⟨congrArg some (String.toList_inj.1 htext), hrest⟩

/-- The label of a module is told off by the closing angle, and its lack by the missing blank. -/
theorem eq_of_module_body_append {label label' : Option String}
    (hlabel : ∀ l, label = some l → '>' ∉ l.toList)
    (hlabel' : ∀ l, label' = some l → '>' ∉ l.toList)
    (h : (module label).body ++ x = (module label').body ++ y) : label = label' ∧ x = y := by
  cases label with
  | none =>
      cases label' with
      | none => exact ⟨rfl, (List.cons.inj h).2⟩
      | some l => cases (List.cons.inj h).1
  | some l =>
      cases label' with
      | none => cases (List.cons.inj h).1
      | some l' =>
          simp only [body, List.cons_append, List.append_assoc, List.nil_append] at h
          obtain ⟨htext, hrest⟩ :=
            Text.eq_of_append_cons_eq (hlabel l rfl) (hlabel' l' rfl) (List.cons.inj h).2
          exact ⟨congrArg some (String.toList_inj.1 htext), hrest⟩

/-- The size of an overload set is told off by the blank after its digits. -/
theorem eq_of_overloaded_body_append {size size' : Nat}
    (h : (overloaded size).body ++ x = (overloaded size').body ++ y) : size = size' ∧ x = y := by
  have hblank (n : Nat) : ' ' ∉ n.repr.toList := by
    rw [Nat.toList_repr]
    intro hmem
    have hdigit := Nat.isDigit_of_mem_toDigits (by decide) (by decide) hmem
    revert hdigit
    decide
  have hwords : " overloads>".toList = ' ' :: "overloads>".toList := rfl
  simp only [body, hwords, List.append_assoc, List.cons_append] at h
  obtain ⟨htext, hrest⟩ := Text.eq_of_append_cons_eq (hblank size) (hblank size') h
  -- The digits of a number are read back to it.
  have hsize : size = size' := by
    rw [Nat.toList_repr, Nat.toList_repr] at htext
    rw [← @Nat.ofDigitChars_ten_toDigits size, htext, Nat.ofDigitChars_ten_toDigits]
  exact ⟨hsize, List.append_cancel_left hrest⟩

/-- A function is told off when its types are. -/
theorem eq_of_function_body_append {name name' : Option String}
    {ps ps' : List (String × List Atom)} {returns returns' : Option (List Atom)}
    (ha : (function name ps returns).Legible) (hb : (function name' ps' returns').Legible)
    (htypes : ∀ p ∈ ps, ∀ a ∈ p.2, ReadsOff text Legible (fun _ => True) a)
    (hreturns : ∀ as, returns = some as → ∀ a ∈ as, ReadsOff text Legible (fun _ => True) a)
    (h : (function name ps returns).body ++ x = (function name' ps' returns').body ++ y) :
    function name ps returns = function name' ps' returns' ∧ x = y := by
  cases ha with | function hname hnames hlegible hreturn =>
  cases hb with | function hname' hnames' hlegible' hreturn' =>
  simp only [body_function, List.append_assoc, List.cons_append] at h
  -- The text is read from the left: the name, the parameters, the return type.
  obtain ⟨rfl, hbody⟩ := eq_of_name_append hname hname' h
  obtain ⟨rfl, hend⟩ := readsOff_parameters (fun p hp => ⟨hnames p hp, hlegible p hp⟩) htypes
    ps' _ _ (fun p hp => ⟨hnames' p hp, hlegible' p hp⟩) rfl rfl hbody
  obtain ⟨rfl, hrest⟩ := readsOff_returnText hreturn hreturns returns' x y hreturn' trivial trivial
    (List.cons.inj hend).2
  exact ⟨rfl, hrest⟩

/-- An atom is told off when the rest of its text is told from that of the atoms of its kind. -/
theorem readsOff_of_body (hbody : ∀ b x y, b.Legible → a.kind = b.kind →
      a.body ++ x = b.body ++ y → a = b ∧ x = y) : ReadsOff text Legible (fun _ => True) a := by
  intro b x y hb _ _ h
  obtain ⟨hkind, hrest⟩ := kind_eq_of_text_append h
  exact hbody b x y hb hkind hrest

/-- A legible atom is told off the front of a text, whatever comes after it. -/
theorem Legible.readsOff (ha : a.Legible) : ReadsOff text Legible (fun _ => True) a := by
  -- The induction is on legibility, which has the atoms inside an atom as its premises.
  induction ha with
  | unbound | unknown | never | any | typeVar | emptyUnion =>
      refine readsOff_of_body fun b x y hb hkind hbody => ?_
      cases hb <;> cases hkind
      exact ⟨rfl, hbody⟩
  | module hlabel =>
      refine readsOff_of_body fun b x y hb hkind hbody => ?_
      cases hb <;> cases hkind
      next hlabel' =>
        obtain ⟨rfl, hrest⟩ := eq_of_module_body_append hlabel hlabel' hbody
        exact ⟨rfl, hrest⟩
  | function hname hnames hlegible hreturn ihtypes ihreturns =>
      have ha := Legible.function hname hnames hlegible hreturn
      refine readsOff_of_body fun b x y hb hkind hbody => ?_
      cases b with
      | function => exact eq_of_function_body_append ha hb ihtypes ihreturns hbody
      | _ => cases hkind
  | overloaded =>
      refine readsOff_of_body fun b x y hb hkind hbody => ?_
      cases hb <;> cases hkind
      obtain ⟨rfl, hrest⟩ := eq_of_overloaded_body_append hbody
      exact ⟨rfl, hrest⟩
  | nominal hname =>
      refine readsOff_of_body fun b x y hb hkind hbody => ?_
      cases hb <;> cases hkind
      next hname' =>
        simp only [body, List.append_assoc, List.singleton_append] at hbody
        obtain ⟨htext, hrest⟩ := Text.eq_of_append_cons_eq hname hname' hbody
        rw [String.toList_inj.1 htext]
        exact ⟨rfl, hrest⟩

end Atom

namespace Shape

/-- The names that the text of a type shows can be read back. Names inside an overload set do not
show, nor does the path of a module that has a name. -/
def Legible (t : TypeView) : Prop :=
  ∀ a ∈ t.atoms, a.Legible

variable {t u : TypeView}

/-- Types of one normal form have one text. -/
theorem render_eq_of_atoms_eq (h : t.atoms = u.atoms) : t.render = u.render := by
  apply String.toList_inj.1
  rw [toList_render, toList_render, h]

/-- Legible types of one text have one normal form. -/
theorem atoms_eq_of_render_eq (ht : t.Legible) (hu : u.Legible) (h : t.render = u.render) :
    t.atoms = u.atoms := by
  have htexts : Atom.typeText t.atoms ++ [] = Atom.typeText u.atoms ++ [] := by
    rw [← toList_render, ← toList_render, h]
  have hends : Atom.EndsType [] := nofun
  have hreads := Atom.readsOff_typeText ht fun a ha => (ht a ha).readsOff
  exact (hreads u.atoms [] [] hu hends hends htexts).1

end Shape

namespace Store

/-- Two classes of one name. -/
def twoPoints : Store :=
  ⟨#[{ name := "Point", table := {} }, { name := "Point", table := {} }]⟩

/-- A function that takes a callback on the first class. -/
def applyFirst : Ty :=
  .function
    { name := "apply"
      parameters := [{
        name := "callback"
        type := .function {
          parameters := [{ name := "x", type := .nominal (.ofBlock ⟨0⟩) }]
          returns := some (.union [.any, .union []]) } }]
      returns := some (.union [
        .union [.module (.named "geometry"), .never],
        .module (.ofPath (.ofString "/srv/shapes.jac"))]) }

/-- The same on the second class, with other brackets around unions, another way to pass the
argument and a path beside the name of the module. -/
def applySecond : Ty :=
  .function
    { name := "apply"
      parameters := [{
        name := "callback"
        mode := .keywordOnly
        type := .union [.function {
          parameters := [{ name := "x", type := .nominal (ClassRef.toInstance (.ofBlock ⟨1⟩)) }]
          returns := some (.union [.any, .union []]) }] }]
      returns := some (.union [
        .module { name := "geometry", path := some (.ofString "/srv/geometry.jac") },
        .union [.never, .module (.ofPath (.ofString "/srv/shapes.jac"))]]) }

end Store

end TypeRegistry
