import Mathlib.Logic.Function.Basic
import Nominal.Catalog
import Nominal.Proofs.Interner.Tree

/-!
# What a catalog shows

A step on a catalog is specified by what it changes of the view: the tokens, names and parts of the
types, what names and rows of tokens lead to, and the counts. The description of a type, the events
and the shape of the tree are no part of it, so a step that changes nothing else leaves the view as
it is.

## Main results

* `Catalog.view_create`, `Catalog.view_setName`, `Catalog.view_bind` and `Catalog.view_place`: what
  is written to a catalog changes its view at one place.
* `Catalog.view_route` and `Catalog.view_modify`: what leaves the view as it is.
* `View.Extends`: a view that still shows all that another one showed.
-/

namespace Nominal

/-- What a catalog shows of its types. -/
@[ext] structure View where
  /-- The number of type objects. -/
  size : Nat
  /-- The serial of the next token. -/
  nextSerial : Nat
  /-- The tokens of types. -/
  token? : TypeId → Option Token
  /-- The names of types. -/
  name? : TypeId → Option (Option Label)
  /-- The parts of types. -/
  parts? : TypeId → Option (Option TypeParts)
  /-- Why types cannot be described, as far as they cannot. -/
  obstacle? : TypeId → Option Failure
  /-- The serials that tokens show in place of their own. -/
  relabelled : List (Nat × Option Label)
  /-- What names denote. -/
  lookup? : String → Option TypeId
  /-- What rows of tokens lead to. -/
  find? : List Token → Option TypeId
  /-- The number of types created for the tree. -/
  count : Nat

/-- What a catalog shows. -/
def Catalog.view (c : Catalog) : View where
  size := c.store.cells.size
  nextSerial := c.store.nextSerial
  token? := c.store.token?
  name? := c.store.name?
  parts? := c.store.parts?
  obstacle? t := c.store.cell? t >>= (·.undescribable)
  relabelled := c.store.relabelled
  lookup? := c.names.lookup?
  find? := c.interner.find?
  count := c.interner.count

namespace View

/-! ### Changes -/

/-- The type that is created next. -/
def next (v : View) : TypeId := ⟨v.size⟩

/-- The view with a new type of the given parts. -/
def create (v : View) (parts : Option TypeParts) : View :=
  { v with
    size := v.size + 1
    nextSerial := v.nextSerial + 1
    token? := Function.update v.token? v.next (some ⟨v.nextSerial, true⟩)
    name? := Function.update v.name? v.next (some none)
    parts? := Function.update v.parts? v.next (some parts)
    obstacle? := Function.update v.obstacle? v.next none }

/-- The view with a type named. -/
def setName (v : View) (t : TypeId) (n : String) : View :=
  { v with name? := Function.update v.name? t (some (some (.ofText n))) }

/-- The view with a name that denotes a type. -/
def bind (v : View) (n : String) (t : TypeId) : View :=
  { v with lookup? := Function.update v.lookup? n (some t) }

/-- The view with a row that leads to a type. -/
def place (v : View) (row : List Token) (t : TypeId) : View :=
  { v with find? := Function.update v.find? row (some t) }

/-- The view with one more type counted. -/
def counted (v : View) : View :=
  { v with count := v.count + 1 }

/-- The view with a new type that is named and can be found by its name. -/
def enter (v : View) (n : String) (parts : Option TypeParts) : View :=
  ((v.create parts).setName v.next n).bind n v.next

section Places

variable (v : View) (n : String) (parts : Option TypeParts) (t : TypeId)

theorem create_token? (u : TypeId) : (v.create parts).token? u =
    if u = v.next then some ⟨v.nextSerial, true⟩ else v.token? u :=
  Function.update_apply _ _ _ _

theorem create_name? (u : TypeId) : (v.create parts).name? u =
    if u = v.next then some none else v.name? u :=
  Function.update_apply _ _ _ _

theorem create_parts? (u : TypeId) : (v.create parts).parts? u =
    if u = v.next then some parts else v.parts? u :=
  Function.update_apply _ _ _ _

theorem create_obstacle? (u : TypeId) : (v.create parts).obstacle? u =
    if u = v.next then none else v.obstacle? u :=
  Function.update_apply _ _ _ _

theorem setName_name? (u : TypeId) : (v.setName t n).name? u =
    if u = t then some (some (.ofText n)) else v.name? u :=
  Function.update_apply _ _ _ _

theorem bind_lookup? (m : String) : (v.bind n t).lookup? m =
    if m = n then some t else v.lookup? m :=
  Function.update_apply _ _ _ _

theorem place_find? (row row' : List Token) : (v.place row t).find? row' =
    if row' = row then some t else v.find? row' :=
  Function.update_apply _ _ _ _

theorem enter_token? : (v.enter n parts).token? t =
    if t = v.next then some ⟨v.nextSerial, true⟩ else v.token? t :=
  v.create_token? parts t

theorem enter_name? : (v.enter n parts).name? t =
    if t = v.next then some (some (.ofText n)) else v.name? t := by
  refine ((v.create parts).setName_name? n v.next t).trans ?_
  split
  · rfl
  · next h => rw [create_name?, if_neg h]

theorem enter_parts? : (v.enter n parts).parts? t =
    if t = v.next then some parts else v.parts? t :=
  v.create_parts? parts t

theorem enter_obstacle? : (v.enter n parts).obstacle? t =
    if t = v.next then none else v.obstacle? t :=
  v.create_obstacle? parts t

theorem enter_lookup? (m : String) : (v.enter n parts).lookup? m =
    if m = n then some v.next else v.lookup? m :=
  bind_lookup? _ n v.next m

end Places

/-! ### Growth -/

/-- A later view still shows what an earlier one showed. Only a name can be added to a type. -/
structure Extends (v v' : View) : Prop where
  /-- No type object is lost. -/
  size : v.size ≤ v'.size
  /-- Tokens stay. -/
  token? : ∀ {t k}, v.token? t = some k → v'.token? t = some k
  /-- Names stay once they are set. -/
  name? : ∀ {t l}, v.name? t = some (some l) → v'.name? t = some (some l)
  /-- Parts stay. -/
  parts? : ∀ {t p}, v.parts? t = some p → v'.parts? t = some p
  /-- Names go on denoting their types. -/
  lookup? : ∀ {n t}, v.lookup? n = some t → v'.lookup? n = some t
  /-- Rows go on leading to their types. -/
  find? : ∀ {row t}, v.find? row = some t → v'.find? row = some t

namespace Extends

variable {v v' v'' : View}

theorem refl (v : View) : v.Extends v :=
  ⟨Nat.le_refl _, id, id, id, id, id⟩

theorem trans (h : v.Extends v') (h' : v'.Extends v'') : v.Extends v'' :=
  ⟨Nat.le_trans h.size h'.size, fun ht => h'.token? (h.token? ht), fun ht => h'.name? (h.name? ht),
    fun ht => h'.parts? (h.parts? ht), fun ht => h'.lookup? (h.lookup? ht),
    fun ht => h'.find? (h.find? ht)⟩

theorem of_eq (h : v' = v) : v.Extends v' :=
  h ▸ refl v

end Extends

/-- What holds at other places is not lost by an update. -/
theorem update_of_eq_some {α β : Type} [DecidableEq α] {f : α → Option β} {a b : α} {x y : β}
    (ha : f a = none) (hb : f b = some y) : Function.update f a (some x) b = some y := by
  rw [Function.update_of_ne, hb]
  rintro rfl
  rw [ha] at hb
  cases hb

/-- A name can be added to a type without one. -/
theorem extends_setName {v : View} {t : TypeId} {n : String} (h : v.name? t = some none) :
    v.Extends (v.setName t n) := by
  refine ⟨Nat.le_refl _, id, fun {u l} hu => ?_, id, id, id⟩
  have hne : u ≠ t := by
    rintro rfl
    rw [h] at hu
    cases hu
  exact (Function.update_of_ne hne _ _).trans hu

/-- A name that denotes nothing can be given a type. -/
theorem extends_bind {v : View} {n : String} {t : TypeId} (h : v.lookup? n = none) :
    v.Extends (v.bind n t) :=
  ⟨Nat.le_refl _, id, id, id, update_of_eq_some h, id⟩

/-- A row that leads nowhere can be given a type. -/
theorem extends_place {v : View} {row : List Token} {t : TypeId} (h : v.find? row = none) :
    v.Extends (v.place row t) :=
  ⟨Nat.le_refl _, id, id, id, id, update_of_eq_some h⟩

theorem extends_counted (v : View) : v.Extends v.counted :=
  ⟨Nat.le_refl _, id, id, id, id, id⟩

end View

/-! ### Catalogs -/

namespace Store

theorem cell?_eq_none {s : Store} {t : TypeId} (h : s.cells.size ≤ t.index) : s.cell? t = none :=
  Array.getElem?_eq_none h

theorem exists_cell? {s : Store} {t : TypeId} (h : t.index < s.cells.size) :
    ∃ c, s.cell? t = some c :=
  ⟨s.cells[t.index], Array.getElem?_eq_getElem h⟩

/-- A new type is found at the end, and all others where they were. -/
theorem cell?_push (s : Store) (c : TypeCell) (t : TypeId) :
    (s.push c).2.cell? t = if t = ⟨s.cells.size⟩ then some c else s.cell? t := by
  by_cases h : t = ⟨s.cells.size⟩
  · subst h
    rw [if_pos rfl]
    exact s.cell?_push_self c
  · have hne : t.index ≠ s.cells.size := fun e => h (by cases t; simp_all)
    simp [push, cell?, Array.getElem?_push, hne, h]

/-- A change of one type is found at this type. -/
theorem cell?_modify (s : Store) (t u : TypeId) (f : TypeCell → TypeCell) :
    (s.modify t f).cell? u = if u = t then (s.cell? u).map f else s.cell? u := by
  by_cases h : u = t
  · subst h
    simp [modify, cell?, Array.getElem?_modify]
  · rw [if_neg h, cell?_modify_of_ne h]

@[simp] theorem size_modify (s : Store) (t : TypeId) (f : TypeCell → TypeCell) :
    (s.modify t f).cells.size = s.cells.size := by
  simp [modify]

/-- A type that was created is found at the end. -/
theorem cell?_createWith (s : Store) (parts : Slot TypeParts) (t : TypeId) :
    (s.createWith parts).2.cell? t = if t = (s.createWith parts).1 then
      some { token := some ⟨s.nextSerial, true⟩, parts := parts } else s.cell? t :=
  cell?_push { s with nextSerial := s.nextSerial + 1 } _ t

/-- A type that was created has no name. -/
theorem name?_createWith (s : Store) (parts : Slot TypeParts) :
    (s.createWith parts).2.name? (s.createWith parts).1 = some none := by
  rw [name?, cell?_createWith, if_pos rfl]
  rfl

/-- A type that was created has the parts that it was given. -/
theorem parts?_createWith (s : Store) (parts : Slot TypeParts) :
    (s.createWith parts).2.parts? (s.createWith parts).1 = parts.read? := by
  rw [parts?, cell?_createWith, if_pos rfl]
  rfl

/-- A type that can have a name has the one that it is given. -/
theorem name?_setName {s : Store} {t : TypeId} {l : Option Label} (h : s.name? t = some l)
    (l' : Label) : (s.setName t (some l')).name? t = some (some l') := by
  rw [name?] at h
  rw [setName, name?, cell?_modify, if_pos rfl]
  cases hcell : s.cell? t with
  | none =>
    rw [hcell] at h
    cases h
  | some cell => rfl

/-- What describing a type changes, if it is done. -/
theorem eq_modify_of_describe {s s' : Store} {t : TypeId} {module : Option String} {path : String}
    (h : s.describe t module path = .ok s') : s' = s.modify t fun c =>
      { c with module := .ofOption (module.map .ofText), path := .holds (.ofText path) } := by
  rw [describe] at h
  split at h
  · cases h
  · exact (Except.ok.inj h).symm

end Store

namespace Catalog

variable {c : Catalog}

theorem store_token? (t : TypeId) : c.store.token? t = c.view.token? t := rfl

theorem store_name? (t : TypeId) : c.store.name? t = c.view.name? t := rfl

theorem store_parts? (t : TypeId) : c.store.parts? t = c.view.parts? t := rfl

/-- Events are not shown. -/
theorem view_publish (c : Catalog) (events : Array Event) :
    { c with events := events }.view = c.view :=
  rfl

/-- Nothing is shown of types that are still to be created. -/
theorem view_eq_none {t : TypeId} (h : c.view.size ≤ t.index) :
    c.view.token? t = none ∧ c.view.name? t = none ∧ c.view.parts? t = none := by
  have hcell := Store.cell?_eq_none h
  simp [view, Store.token?, Store.name?, Store.parts?, hcell]

theorem lt_size_of_name? {t : TypeId} {l : Option Label} (h : c.view.name? t = some l) :
    t.index < c.view.size := by
  by_contra hle
  rw [(view_eq_none (Nat.not_lt.1 hle)).2.1] at h
  cases h

/-- A new type changes nothing that was shown before. -/
theorem extends_create (c : Catalog) (parts : Option TypeParts) :
    c.view.Extends (c.view.create parts) := by
  obtain ⟨htoken, hname, hparts⟩ := view_eq_none (c := c) (t := c.view.next) (Nat.le_refl _)
  exact ⟨Nat.le_succ _, View.update_of_eq_some htoken, View.update_of_eq_some hname,
    View.update_of_eq_some hparts, id, id⟩

/-- A new type under a new name changes nothing that was shown before. -/
theorem extends_enter {n : String} (h : c.view.lookup? n = none) (parts : Option TypeParts) :
    c.view.Extends (c.view.enter n parts) := by
  have hname : c.view.Extends ((c.view.create parts).setName c.view.next n) :=
    (extends_create c parts).trans (View.extends_setName (Function.update_self _ _ _))
  exact hname.trans (View.extends_bind h)

/-- What a new type shows. -/
theorem view_create (c : Catalog) (parts : Option TypeParts) :
    { c with store := (c.store.createWith (.ofOption parts)).2 }.view = c.view.create parts := by
  have hnext : (c.store.createWith (.ofOption parts)).1 = c.view.next := rfl
  ext1
  case size => simp [view, View.create, Store.createWith, Store.newToken, Store.push]
  case nextSerial => rfl
  case token? | name? | parts? | obstacle? =>
    funext t
    simp only [view, View.create, Store.token?, Store.name?, Store.parts?,
      Store.cell?_createWith, hnext, Function.update_apply]
    split
    · cases parts <;> rfl
    · rfl
  all_goals rfl

/-- Writing a name shows nothing else. -/
theorem view_setName {t : TypeId} (h : t.index < c.view.size) (n : String) :
    { c with store := c.store.setName t (some (.ofText n)) }.view = c.view.setName t n := by
  have hcell := Store.cell?_modify c.store t
  obtain ⟨cell, ht⟩ := Store.exists_cell? h
  ext1
  case size => exact Store.size_modify _ _ _
  case name? =>
    funext u
    simp only [view, View.setName, Store.setName, Store.name?, hcell, Function.update_apply]
    split
    · next hu =>
        subst hu
        simp [ht, Slot.ofOption, Slot.read?]
    · rfl
  case token? | parts? | obstacle? =>
    funext u
    simp only [view, View.setName, Store.setName, Store.token?, Store.parts?, hcell]
    split <;> cases c.store.cell? u <;> rfl
  all_goals rfl

/-- A change of a type shows nothing if it leaves all but the description. -/
theorem view_modify (t : TypeId) {f : TypeCell → TypeCell}
    (h : ∀ cell, (f cell).token = cell.token ∧ (f cell).name = cell.name ∧
      (f cell).parts = cell.parts ∧ (f cell).undescribable = cell.undescribable) :
    { c with store := c.store.modify t f }.view = c.view := by
  have hcell := Store.cell?_modify c.store t
  ext1
  case size => exact Store.size_modify _ _ _
  case token? | name? | parts? | obstacle? =>
    funext u
    simp only [view, Store.token?, Store.name?, Store.parts?, hcell]
    split <;> cases c.store.cell? u <;> simp [h]
  all_goals rfl

/-- A description shows nothing. -/
theorem view_of_describe {s : Store} {t : TypeId} {module : Option String} {path : String}
    (h : c.store.describe t module path = .ok s) : { c with store := s }.view = c.view := by
  rw [Store.eq_modify_of_describe h]
  exact view_modify t fun _ => ⟨rfl, rfl, rfl, rfl⟩

/-- A new entry of the table of names shows nothing else. -/
theorem view_bind {n : String} (h : c.view.lookup? n = none) (t : TypeId) :
    { c with names := c.names.bind n t }.view = c.view.bind n t := by
  ext1
  case lookup? =>
    funext m
    exact (NameTable.lookup?_bind h m).trans (Function.update_apply _ _ _ _).symm
  all_goals rfl

/-- Levels are not shown. -/
theorem view_route (c : Catalog) (path : List Token) :
    { c with interner := (c.interner.route path).2 }.view = c.view := by
  ext1
  case find? => exact funext (c.interner.find?_route path)
  all_goals rfl

/-- A type placed at the end of a path of levels shows nothing else. -/
theorem view_place {i : Interner} {path : List Token} (h : c.interner.root = (i.route path).2.root)
    (last : Token) (t : TypeId) :
    { c with interner := c.interner.place t (path ++ [last]) }.view =
      c.view.place (path ++ [last]) t := by
  have hroot : ∀ row, c.interner.find? row = i.find? row := fun row =>
    (congrArg (Entry.find? row) h).trans (i.find?_route path row)
  ext1
  case find? =>
    funext row
    have hplace : (c.interner.place t (path ++ [last])).find? row =
        ((i.route path).2.place t (path ++ [last])).find? row :=
      congrArg (fun root => Entry.find? row (Entry.place t (path ++ [last]) root)) h
    refine hplace.trans ((i.find?_place_route t path last row).trans ?_)
    rw [← hroot]
    exact (Function.update_apply _ _ _ _).symm
  all_goals rfl

end Catalog

end Nominal
