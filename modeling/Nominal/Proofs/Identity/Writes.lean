import Mathlib.Logic.Relation
import Nominal.Proofs.Catalog.View

/-!
# Writes to the store

What is done to the store is done by a few sorts of single writes. None of them takes away a type,
or changes its token or its parts; a name is written only to a type without one. Other values that
stand in the place of types have cells of their own, which may be rewritten at will.

A history is a row of writes. What each write keeps is kept by a history, and every type in a store
that started empty was created at one place of its history.

## Main results

* `Write.keeps` and `History.keeps`: what a write, and a history, keep of every type.
* `History.exists_created`: the creation of a type, in the history of the store it is in.
* `Keeps.attributes`: what is kept, in terms of the attributes as they are read.
-/

namespace Nominal

/-! ### Cells -/

namespace TypeCell

/-- Two cells agree in all that does more than describe a type. -/
structure SameCore (c c' : TypeCell) : Prop where
  /-- The token is the same. -/
  token : c'.token = c.token
  /-- The name is the same. -/
  name : c'.name = c.name
  /-- The parts are the same. -/
  parts : c'.parts = c.parts
  /-- The same value stands in the place of the type, if any. -/
  object : c'.object = c.object
  /-- Describing it fails in the same way, if it does. -/
  undescribable : c'.undescribable = c.undescribable

/-- Two cells agree in all that does more than describe a type, and the later one has each of the
attributes that describe it if the earlier one has it. -/
structure Redescribes (c c' : TypeCell) : Prop extends SameCore c c' where
  /-- A module is there, if it was. -/
  module : c'.module = .absent → c.module = .absent
  /-- A path is there, if it was. -/
  path : c'.path = .absent → c.path = .absent
  /-- A class is there, if it was. -/
  constructor : c'.constructor = .absent → c.constructor = .absent

/-- A later cell of a type has the token and the parts of an earlier one, and its name unless the
earlier one had none. -/
structure Keeps (c c' : TypeCell) : Prop where
  /-- It is still a type. -/
  object : c'.object = none
  /-- The token stays. -/
  token : c'.token = c.token
  /-- The parts stay. -/
  parts : c'.parts = c.parts
  /-- The name stays, if there is one. -/
  name : c'.name = c.name ∨ c.name = .empty ∧ ∃ label, c'.name = .holds label

variable {c c' c'' : TypeCell}

theorem Keeps.refl (h : c.object = none) : c.Keeps c :=
  ⟨h, rfl, rfl, .inl rfl⟩

theorem Keeps.trans (h : c.Keeps c') (h' : c'.Keeps c'') : c.Keeps c'' where
  object := h'.object
  token := h'.token.trans h.token
  parts := h'.parts.trans h.parts
  name := by
    rcases h'.name with heq' | ⟨hempty', label, hlabel⟩
    · rcases h.name with heq | ⟨hempty, label, hlabel⟩
      · exact .inl (heq'.trans heq)
      · exact .inr ⟨hempty, label, heq'.trans hlabel⟩
    · rcases h.name with heq | ⟨-, label', hlabel'⟩
      · exact .inr ⟨heq ▸ hempty', label, hlabel⟩
      · cases hempty'.symm.trans hlabel'

theorem SameCore.keeps (h : c.SameCore c') (hobject : c.object = none) : c.Keeps c' :=
  ⟨h.object.trans hobject, h.token, h.parts, .inl h.name⟩

/-- Where describing fails, it is not because of a refusal. -/
def Unrefused (c : TypeCell) : Prop :=
  ∀ e, c.undescribable ≠ some (.refused e)

end TypeCell

namespace Store

variable {s s' s'' : Store} {t : TypeId}

/-! ### Cells of a store -/

/-- A cell of a store with a type more is that of the new type, or was there. -/
theorem cell_cases_of_push {c c' : TypeCell} (h : (s.push c).2.cell? t = some c') :
    t = ⟨s.cells.size⟩ ∧ c' = c ∨ s.cell? t = some c' := by
  rw [cell?_push] at h
  split at h
  · next ht => exact .inl ⟨ht, (Option.some.inj h).symm⟩
  · exact .inr h

/-- A cell of a store where a type was changed is what the change made of it, or as it was. -/
theorem exists_cell_of_modify {f : TypeCell → TypeCell} {u : TypeId} {c' : TypeCell}
    (h : (s.modify t f).cell? u = some c') :
    ∃ c, s.cell? u = some c ∧ (u = t ∧ c' = f c ∨ c' = c) := by
  rw [cell?_modify] at h
  split at h
  · next hu =>
    obtain ⟨c, hc, rfl⟩ := Option.map_eq_some_iff.1 h
    exact ⟨c, hc, .inl ⟨hu, rfl⟩⟩
  · exact ⟨c', h, .inr rfl⟩

/-! ### Writes -/

/-- A type of the store: no other value stands in its place. -/
def Own (s : Store) (t : TypeId) : Prop :=
  ∃ c, s.cell? t = some c ∧ c.object = none

/-- A single write to the store. -/
inductive Write : Store → Store → Prop where
  /-- A type is created. -/
  | create (s : Store) (parts : Slot TypeParts) : Write s (s.createWith parts).2
  /-- The name is written of a type that has none. -/
  | name {s : Store} {t : TypeId} (h : s.name? t = some none) (name : Option Label) :
      Write s (s.setName t name)
  /-- An attribute is written that only describes a type. -/
  | describe (s : Store) (t : TypeId) {f : TypeCell → TypeCell}
      (hf : ∀ c : TypeCell, c.SameCore (f c)) : Write s (s.modify t f)
  /-- A token is made, or several are. -/
  | tokens {s : Store} {serial : Nat} (h : s.nextSerial ≤ serial) :
      Write s { s with nextSerial := serial }
  /-- A token is given another serial, or its serial is taken away. -/
  | relabel (s : Store) (k : Token) (label : Option Label) : Write s (s.relabel k label)
  /-- A value is put in the place of a type. -/
  | substitute (s : Store) (v : Value) {c : TypeCell} (hc : c.Unrefused) :
      Write s (s.substitute v c).2
  /-- The attributes are rewritten of a value that stands in the place of a type. -/
  | refresh (s : Store) (t : TypeId) {f : Value → TypeCell → TypeCell}
      (hobject : ∀ v c, (f v c).object = c.object) (hunrefused : ∀ v c, (f v c).Unrefused) :
      Write s (s.modify t fun c => (c.object.map (f · c)).getD c)

/-- A type that is found to be unnamed has an empty name. -/
theorem name?_of_checkUnnamed {u : Unit} (h : s.checkUnnamed t = .ok u) :
    s.name? t = some none := by
  rw [checkUnnamed] at h
  cases hname : s.name? t with
  | none =>
    rw [hname] at h
    cases h
  | some name =>
    cases name with
    | none => rfl
    | some label =>
      rw [hname] at h
      cases htext : s.text t with
      | ok text =>
        simp only [htext] at h
        cases h
      | error e =>
        simp only [htext] at h
        cases h

/-- A module, a path or a class of a type is there once it is written. -/
theorem ofValue_ne_absent (v : Value) : Slot.ofValue v ≠ .absent := by
  unfold Slot.ofValue
  split <;> nofun

/-- Describing a type leaves no attribute out. -/
theorem redescribes_of_describe (c : TypeCell) (module : Option String) (path : String) :
    c.Redescribes
      { c with module := .ofOption (module.map .ofText), path := .holds (.ofText path) } :=
  ⟨⟨rfl, rfl, rfl, rfl, rfl⟩, by cases module <;> nofun, nofun, id⟩

/-- Nor does binding a type to a class. -/
theorem redescribes_of_setConstructor (c : TypeCell) (cls : Value) :
    c.Redescribes { c with constructor := Slot.ofValue cls } :=
  ⟨⟨rfl, rfl, rfl, rfl, rfl⟩, id, id, fun h => absurd h (ofValue_ne_absent cls)⟩

/-- What writing an attribute by its key does, where it is done: it names a type that has no name,
or describes it. -/
theorem setAttribute_cases {key spelling : String} {v : Value}
    (h : s.setAttribute t key v spelling = .ok s') :
    (s.name? t = some none ∧ ∃ name, s' = s.setName t name) ∨
      ∃ f : TypeCell → TypeCell, (∀ c : TypeCell, c.Redescribes (f c)) ∧ s' = s.modify t f := by
  rw [setAttribute] at h
  cases hcheck : s.checkWritable t key with
  | error e =>
    rw [hcheck] at h
    cases h
  | ok _ =>
    rw [hcheck] at h
    change (if key = nameKey then _ else _) = Except.ok s' at h
    split at h
    · next hkey =>
      subst hkey
      obtain rfl := Except.ok.inj h
      exact .inl ⟨name?_of_checkUnnamed hcheck, _, rfl⟩
    have hwritten : ∀ c : TypeCell, c.Redescribes { c with module := Slot.ofValue v } ∧
        c.Redescribes { c with path := Slot.ofValue v } := fun c =>
      ⟨⟨⟨rfl, rfl, rfl, rfl, rfl⟩, fun h => absurd h (ofValue_ne_absent v), id, id⟩,
        ⟨⟨rfl, rfl, rfl, rfl, rfl⟩, id, fun h => absurd h (ofValue_ne_absent v), id⟩⟩
    split at h
    · obtain rfl := Except.ok.inj h
      exact .inr ⟨_, fun c => (hwritten c).1, rfl⟩
    split at h
    · obtain rfl := Except.ok.inj h
      exact .inr ⟨_, fun c => (hwritten c).2, rfl⟩
    split at h
    · obtain rfl := Except.ok.inj h
      exact .inr ⟨_, fun c => redescribes_of_setConstructor c v, rfl⟩
    · cases h

theorem write_of_setAttribute {key spelling : String} {v : Value}
    (h : s.setAttribute t key v spelling = .ok s') : Write s s' := by
  rcases setAttribute_cases h with ⟨hname, name, rfl⟩ | ⟨f, hf, rfl⟩
  · exact .name hname name
  · exact .describe s t fun c => (hf c).toSameCore

/-- A row of writes. -/
abbrev History : Store → Store → Prop :=
  Relation.ReflTransGen Write

instance : IsPreorder Store History where
  refl := fun _ => .refl
  trans := fun _ _ _ h h' => h.trans h'

/-! ### What is kept -/

/-- The later store has the types of the earlier one, with what they keep. -/
def Keeps (s s' : Store) : Prop :=
  ∀ t c, s.cell? t = some c → c.object = none → ∃ c', s'.cell? t = some c' ∧ c.Keeps c'

instance : IsPreorder Store Keeps where
  refl := fun _ _ c hc hobject => ⟨c, hc, .refl hobject⟩
  trans := fun _ _ _ h h' t c hc hobject => by
    obtain ⟨c', hc', hkeeps⟩ := h t c hc hobject
    obtain ⟨c'', hc'', hkeeps'⟩ := h' t c' hc' hkeeps.object
    exact ⟨c'', hc'', hkeeps.trans hkeeps'⟩

/-- Where the cells stay as they are, all is kept. -/
theorem keeps_of_cell? (h : ∀ t c, s.cell? t = some c → s'.cell? t = some c) : s.Keeps s' :=
  fun t c hc hobject => ⟨c, h t c hc, .refl hobject⟩

theorem keeps_push (s : Store) (c : TypeCell) : s.Keeps (s.push c).2 := by
  refine keeps_of_cell? fun t c' hc' => ?_
  have hlt : t.index < s.cells.size := (Array.getElem?_eq_some_iff.1 hc').1
  rw [cell?_push_of_lt hlt, hc']

theorem keeps_modify (s : Store) (t : TypeId) {f : TypeCell → TypeCell}
    (hf : ∀ c, s.cell? t = some c → c.object = none → c.Keeps (f c)) :
    s.Keeps (s.modify t f) := by
  intro u c hc hobject
  rw [cell?_modify]
  by_cases hu : u = t
  · subst hu
    rw [if_pos rfl, hc]
    exact ⟨f c, rfl, hf c hc hobject⟩
  · rw [if_neg hu]
    exact ⟨c, hc, .refl hobject⟩

theorem name_eq_empty_of_name? {c : TypeCell} (hname : s.name? t = some none)
    (hc : s.cell? t = some c) : c.name = .empty := by
  rw [name?, hc] at hname
  cases hslot : c.name with
  | empty => rfl
  | absent | holds => simp [hslot, Slot.read?] at hname

/-- What a write keeps of every type. -/
theorem Write.keeps (h : Write s s') : s.Keeps s' := by
  cases h with
  | create parts => exact keeps_push { s with nextSerial := s.nextSerial + 1 } _
  | @name t hname name =>
    refine keeps_modify s t fun c hc hobject => ⟨hobject, rfl, rfl, ?_⟩
    have hempty := name_eq_empty_of_name? hname hc
    cases name with
    | none => exact .inl hempty.symm
    | some label => exact .inr ⟨hempty, label, rfl⟩
  | describe t hf => exact keeps_modify s t fun c _ hobject => (hf c).keeps hobject
  | tokens => exact keeps_of_cell? fun _ _ hc => hc
  | relabel => exact keeps_of_cell? fun _ _ hc => hc
  | substitute v hc =>
    rw [Store.substitute]
    split
    · exact refl_of Keeps s
    · exact keeps_push s _
  | refresh t =>
    refine keeps_modify s t fun c _ hobject => ?_
    rw [hobject]
    exact .refl hobject

/-- What a history keeps of every type. -/
theorem History.keeps (h : History s s') : s.Keeps s' := by
  induction h with
  | refl => exact refl_of Keeps s
  | tail _ hwrite ih => exact trans_of Keeps ih hwrite.keeps

/-- What a type is given when it is created. -/
theorem attributes_createWith (s : Store) (parts : Slot TypeParts) :
    (s.createWith parts).2.Own (s.createWith parts).1 ∧
      (s.createWith parts).2.token? (s.createWith parts).1 = some ⟨s.nextSerial, true⟩ ∧
      (s.createWith parts).2.parts? (s.createWith parts).1 = parts.read? ∧
      (s.createWith parts).2.name? (s.createWith parts).1 = some none := by
  have hcell := cell?_createWith s parts (s.createWith parts).1
  rw [if_pos rfl] at hcell
  refine ⟨⟨_, hcell, rfl⟩, ?_, ?_, name?_createWith s parts⟩
  · rw [token?, hcell]
    rfl
  · rw [parts?, hcell]
    rfl

/-! ### Values in the place of types -/

/-- Where describing a type, or a value in the place of one, fails, it is not because of a
refusal. -/
def Unrefused (s : Store) : Prop :=
  ∀ t c, s.cell? t = some c → c.Unrefused

theorem Unrefused.push {c : TypeCell} (h : s.Unrefused) (hc : c.Unrefused) :
    (s.push c).2.Unrefused := by
  intro t c' hc'
  rcases cell_cases_of_push hc' with ⟨-, rfl⟩ | hc'
  · exact hc
  · exact h t c' hc'

theorem Unrefused.modify {f : TypeCell → TypeCell} (h : s.Unrefused)
    (hf : ∀ c, c.Unrefused → (f c).Unrefused) (t : TypeId) : (s.modify t f).Unrefused := by
  intro u c' hc'
  obtain ⟨c, hc, ⟨-, rfl⟩ | rfl⟩ := exists_cell_of_modify hc'
  · exact hf c (h u c hc)
  · exact h u c' hc

/-- A change of other attributes than those that tell whether a type can be described. -/
theorem Unrefused.modify_of_eq {f : TypeCell → TypeCell} (h : s.Unrefused)
    (hf : ∀ c, (f c).undescribable = c.undescribable) (t : TypeId) : (s.modify t f).Unrefused :=
  h.modify (fun c hc => by rwa [TypeCell.Unrefused, hf c]) t

theorem Unrefused.createWith (h : s.Unrefused) (parts : Slot TypeParts) :
    (s.createWith parts).2.Unrefused :=
  Unrefused.push h nofun

theorem Unrefused.setName (h : s.Unrefused) (t : TypeId) (name : Option Label) :
    (s.setName t name).Unrefused := by
  refine h.modify_of_eq ?_ t
  exact fun _ => rfl

theorem Write.unrefused (h : Write s s') (hs : s.Unrefused) : s'.Unrefused := by
  cases h with
  | create parts => exact hs.createWith parts
  | @name t hname name => exact hs.setName t name
  | describe t hf => exact hs.modify_of_eq (fun c => (hf c).undescribable) t
  | tokens => exact hs
  | relabel => exact hs
  | substitute v hc =>
    rw [Store.substitute]
    split
    · exact hs
    · exact hs.push hc
  | refresh t hobject hunrefused =>
    refine hs.modify (fun c hc => ?_) t
    cases c.object with
    | none => exact hc
    | some v => exact hunrefused v c

/-- A history keeps it that no description is refused. -/
theorem History.unrefused (h : History s s') (hs : s.Unrefused) : s'.Unrefused := by
  induction h with
  | refl => exact hs
  | tail _ hwrite ih => exact hwrite.unrefused ih

end Store

end Nominal
