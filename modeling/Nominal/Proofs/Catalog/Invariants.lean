import Nominal.Proofs.Catalog.Elementary
import Nominal.Proofs.Identity.Writes

/-!
# Invariants of the store

What a catalog does to the store of types is little: it creates types without parts, and types for
rows of parts that all have tokens; it names a type that has neither a name nor parts, and one that
has parts after these; and it describes types. What holds of a store and is kept by each of these
changes is kept by all that a catalog does, also where it fails.

## Main results

* `Store.Invariant`: what is kept by each change.
* `keeping_resolve`, `keeping_intern` and `keeping_seed`: what is kept by a catalog.
-/

namespace Nominal

open Catalog (namesOf?)

/-- A label is put together from the names of a base and of arguments. -/
def Store.NamedAfter (s : Store) (base : TypeId) (args : List TypeId) (l : Label) : Prop :=
  ∃ b ls texts, namesOf? s (base :: args) = some (some (b :: ls)) ∧
    ls.mapM Label.text? = some texts ∧
    l = .ofText (b.spelling ++ "<" ++ ", ".intercalate texts ++ ">")

/-- What holds of a store and is kept by each change that a catalog makes. -/
structure Store.Invariant (I : Store → Prop) : Prop where
  /-- A type without parts is created. -/
  create : ∀ {s : Store}, I s → I s.create.2
  /-- A type is created for parts that have tokens. -/
  createComplex : ∀ {s : Store} {base : TypeId} {args : List TypeId} {row : List Token},
    (base :: args).map s.token? = row.map some → I s →
    I (s.createComplex ⟨some base, args.map some⟩).2
  /-- A type is named that has neither a name nor parts. -/
  name : ∀ {s : Store} {t : TypeId}, s.name? t = some none → s.parts? t = some none →
    ∀ n : String, I s → I (s.setName t (some (.ofText n)))
  /-- A type is named after its parts. -/
  nameAfter : ∀ {s : Store} {t base : TypeId} {args : List TypeId} {l : Label},
    s.name? t = some none → s.parts? t = some (some ⟨some base, args.map some⟩) →
    s.NamedAfter base args l → I s → I (s.setName t (some l))
  /-- A type is described, or bound to a class. -/
  describe : ∀ {s : Store} (t : TypeId) {f : TypeCell → TypeCell},
    (∀ c : TypeCell, c.Redescribes (f c)) → I s → I (s.modify t f)

namespace Catalog

/-- What holds of the store still holds of it. -/
def Keeping (I : Store → Prop) (c c' : Catalog) : Prop := I c.store → I c'.store

instance (I : Store → Prop) : IsPreorder Catalog (Keeping I) where
  refl := fun _ => id
  trans := fun _ _ _ h h' hc => h' (h hc)

variable {I : Store → Prop}

theorem keeping_report (source : Component) (level : Level) (wording : String) (c : Catalog) :
    Frames (Keeping I) (report source level wording) c :=
  .modify id

theorem keeping_bindName (n : String) (t : TypeId) (c : Catalog) :
    Frames (Keeping I) (bindName n t) c :=
  frames_bindName fun _ => id

section Invariant

variable (hI : Store.Invariant I) {c : Catalog} {t base : TypeId} {args : List TypeId}
include hI

theorem keeping_named (n : String) (c : Catalog) : Frames (Keeping I) (named n) c := by
  refine .run_bind (run_lookup n c) ?_
  cases c.view.lookup? n with
  | some t => exact .pure t c
  | none =>
    refine .get_bind (.bind (.set fun hc => ?_) fun _ c₁ _ => ?_)
    · exact hI.name (Store.name?_createWith c.store .empty) (Store.parts?_createWith c.store .empty)
        n (hI.create hc)
    · exact .bind (keeping_report _ _ _ c₁) fun _ c₂ _ => .pure _ c₂

theorem keeping_describe (t : TypeId) (parts : Reference.Parts) (c : Catalog) :
    Frames (Keeping I) (describe t parts) c := by
  refine .get_bind ?_
  cases h : c.store.describe t parts.module parts.path with
  | error e => exact .throw e c
  | ok s =>
    refine .modify fun hc => ?_
    rw [Store.eq_modify_of_describe h]
    exact hI.describe t (fun c => Store.redescribes_of_describe c _ _) hc

/-- A new type of the tree is named after its parts, or not at all. -/
theorem keeping_nameInterned (hname : c.store.name? t = some none)
    (hparts : c.store.parts? t = some (some ⟨some base, args.map some⟩)) :
    Frames (Keeping I) (nameInterned t base args) c := by
  have hreport : ∀ c : Catalog, Frames (Keeping I) (do
      report .interner Level.debug ("complex type " ++ (← text t) ++ " created")
      return t) c := fun c =>
    .bind (frames_text t c) fun _ c₁ _ => .bind (keeping_report _ _ _ c₁) fun _ c₂ _ => .pure t c₂
  rw [nameInterned]
  refine frames_read_bind fun names hnames => ?_
  rcases names with _ | _ | ⟨b, ls⟩
  · exact hreport c
  · exact hreport c
  · simp only
    cases htexts : ls.mapM Label.text? with
    | none => exact .throw _ _
    | some texts =>
      simp only
      refine .bind (.modify (hI.nameAfter hname hparts ⟨b, ls, texts, hnames, htexts, rfl⟩))
        fun _ c₁ _ => .run_bind (run_lookup _ _) ?_
      split
      · exact .bind (keeping_bindName _ _ _) fun _ c₂ _ => hreport c₂
      · refine .bind (frames_text _ _) fun _ c₂ _ => ?_
        exact .bind (keeping_report _ _ _ c₂) fun _ c₃ _ => hreport c₃

theorem keeping_intern (base : TypeId) (args : List TypeId) (c : Catalog) :
    Frames (Keeping I) (intern base args) c := by
  refine frames_intern_of_createInterned
    (frames_routeAlong_of_tables (fun _ _ => id) fun _ _ => id) (fun {_ _ _} _ => id)
    (fun {c _} hrow => ?_) c
  exact .of_run_eq (run_createInterned_eq base args c) (hI.createComplex hrow)
    (keeping_nameInterned hI (Store.name?_createWith _ _) (Store.parts?_createWith _ _))

theorem keeping_resolve (strict : Bool) (text : String) (c : Catalog) :
    Frames (Keeping I) (resolve strict text) c :=
  frames_resolveOutline ⟨keeping_named hI, keeping_describe hI, keeping_report, keeping_intern hI⟩
    _ c

theorem keeping_seed (c : Catalog) : Frames (Keeping I) seed c := by
  refine .forM (fun p _ c => ?_) c
  exact .bind (keeping_named hI _ c) fun t c₁ _ => .modify id

end Invariant

end Catalog

end Nominal
