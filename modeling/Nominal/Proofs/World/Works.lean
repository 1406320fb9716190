import Nominal.Proofs.Identity.Layers
import Nominal.Proofs.World.Deeds
import Nominal.Proofs.World.Invariants

/-!
# Runs with types that were assembled by hand

All that can be done from outside may be done, in any order: types are created and named, attributes
of all values are written and removed, registries are added and called. Besides, type objects are
assembled by hand, around creation, and tokens and parts are written past all checks. Objects are
given no parts but such as were there before them, so types are younger than their parts at all
times.

## Main results

* `writing_keeping` and `keeping_deed`: what writing attributes keeps, and what any deed keeps.
* `Work.layered` and `layered_of_works`: one step, and any run.
-/

namespace Nominal

/-- A type object is assembled by hand: without attributes, with a token of its own, or with the
token of another object; or an object that is there gets another token, or loses the one it has, or
is given parts. -/
inductive Store.Assembles (s : Store) : Store → Prop where
  /-- It has no attributes. -/
  | bare : Assembles s s.forgeBare.2
  /-- It has a token of its own. -/
  | byHand : Assembles s s.forgeByHand.2
  /-- It has the token of another object. -/
  | sharing {t : TypeId} {token : Token} (h : s.token? t = some token) :
      Assembles s (s.forgeSharing token).2
  /-- A token that was made is written to an object, or none. -/
  | rewriting (t : TypeId) {token : Option Token} (h : ∀ k ∈ token, k.serial < s.nextSerial) :
      Assembles s (s.modify t fun c => { c with token := token })
  /-- A base and arguments are written to an object, which were there before it. -/
  | furnishing (t : TypeId) {base : TypeId} {args : List (Option TypeId)}
      (h : ∀ u ∈ (TypeParts.mk (some base) args).types, u.index < t.index) :
      Assembles s (s.furnish t ⟨some base, args⟩)

theorem Store.Assembles.layered {s s' : Store} (h : s.Assembles s') (hs : s.Layered) :
    s'.Layered := by
  cases h with
  | bare => exact Layered.push hs fun _ => ⟨fun hname => absurd rfl hname, nofun⟩
  | byHand =>
    exact Layered.push (s := (s.newToken false).2) (hs.congr rfl) fun _ =>
      ⟨fun hname => absurd rfl hname, nofun⟩
  | @sharing t token h =>
    exact Layered.push hs fun _ => TypeCell.layered_created token nofun nofun
  | rewriting t h =>
    exact hs.modify t fun c _ hobject => ⟨hobject, fun hc =>
      ⟨fun hname => ⟨(hc.full hname).parts, (hc.full hname).module, (hc.full hname).path,
        (hc.full hname).constructor⟩, hc.older⟩⟩
  | furnishing t h => exact hs.furnish h

namespace World

variable {w w' : World}

/-- An invariant of the store is kept where attributes are written if naming a type, describing one,
giving a token another serial, and rewriting other values in the place of types keep it. -/
theorem writing_keeping {I : Store → Prop} (hI : Store.Invariant I)
    (hname : ∀ {s : Store} {t : TypeId}, s.name? t = some none → ∀ name, I s → I (s.setName t name))
    (hrelabel : ∀ {s : Store} (k : Token) (label : Option Label), I s → I (s.relabel k label))
    (hobjects : ∀ {s : Store} (t : TypeId) {f : TypeCell → TypeCell},
      (∀ c : TypeCell, (f c).object = c.object ∧ (c.object = none → f c = c)) → I s →
      I (s.modify t f)) : Writing (Keeping I) where
  heap := fun _ _ => id
  write := fun hs hw => by
    rcases Store.setAttribute_cases hs with ⟨hnone, name, rfl⟩ | ⟨f, hf, rfl⟩
    · exact hname hnone name hw
    · exact hI.describe _ hf hw
  relabel := fun _ k label => hrelabel k label
  refreshed := fun w => by
    have : IsPreorder Store fun s s' => I s → I s' :=
      { refl := fun _ => id, trans := fun _ _ _ h h' hs => h' (h hs) }
    refine of_modifySubstitutes (R := fun s s' => I s → I s') (fun s t => hobjects t fun c => ?_)
      w.store
    cases hc : c.object with
    | none => exact ⟨hc, fun _ => rfl⟩
    | some v => exact ⟨rfl, nofun⟩

/-- So it is where a value is taken for a type, if a value in the place of a new type keeps it, and
it says nothing of which values have such places. -/
theorem attributing_keeping {I : Store → Prop} (h : Writing (Keeping I))
    (hpush : ∀ {s : Store} {c : TypeCell}, c.object ≠ none → I s → I (s.push c).2)
    (hplaces : ∀ {s : Store} (substitutes : List (Entity × TypeId)), I s →
      I { s with substitutes := substitutes }) : Attributing (Keeping I) where
  toWriting := h
  substitute := fun w v hw => by
    rw [Store.substitute]
    split
    · exact hw
    · have hcell : { w.cellOf v with object := some v }.object ≠ none := Option.some_ne_none v
      exact hplaces _ (hpush hcell hw)

/-- Types are younger than their parts, if they were before. -/
theorem attributing_layered : Attributing (Keeping Store.Layered) := by
  refine attributing_keeping ?_ (fun hobject hw => hw.push fun h => absurd h hobject)
    fun _ hw => hw.congr rfl
  refine writing_keeping Store.invariant_layered (fun hname name hw => hw.setName hname name)
    (fun _ _ hw => hw.congr rfl) fun t _ hf hw => hw.modify t fun c _ hobject => ?_
  have hown := (hf c).1.symm.trans hobject
  rw [(hf c).2 hown]
  exact ⟨hown, id⟩

/-- The parts are there that a type is to be created of. -/
def Deed.Founded (w : World) : Deed → Prop
  | createComplex parts => ∀ u ∈ parts.types, u.index < w.store.cells.size
  | _ => True

/-- Something is done from outside, with or without a result; or a type object is assembled by hand;
or something else happens: tokens are made, and anything outside the store changes. -/
inductive Work (w : World) : World → Prop where
  /-- Something is done from outside. -/
  | deed {d : Deed} (h : d.Founded w) : Work w (final d.act w)
  /-- A type object is assembled by hand. -/
  | assemble {store : Store} (h : w.store.Assembles store) : Work w { w with store := store }
  /-- Something else happens. -/
  | besides {w' : World} {serial : Nat} (hle : w.store.nextSerial ≤ serial)
      (hstore : w'.store = { w.store with nextSerial := serial }) : Work w w'

/-- Any number of such steps. -/
abbrev Works : World → World → Prop :=
  Relation.ReflTransGen Work

/-- A deed keeps an invariant of the store that what registries do and what is written keeps, if
creating a parameterized type, naming a type, and putting a value in the place of one keep it as
well. -/
theorem keeping_deed {I : Store → Prop} (hI : Store.Invariant I) (hwriting : Writing (Keeping I))
    {d : Deed} (hcreate : ∀ parts, d = .createComplex parts → I w.store →
      I (w.store.createComplex parts).2)
    (hname : ∀ {t name}, d = .assignName t name → w.store.name? t = some none → I w.store →
      I (w.store.setName t (some (.ofText name))))
    (hstandIn : ∀ v, d = .standIn v → Frames (Keeping I) (standIn v) w) :
    Frames (Keeping I) d.act w := by
  cases d with
  | create => exact .discard fun hw => hI.create hw
  | createComplex parts => exact .discard fun hw => hcreate parts rfl hw
  | assignName t name =>
    rw [Deed.act]
    refine frames_tryStore fun s hs hw => ?_
    rcases Catalog.assignName_ok hs with rfl | ⟨hnone, rfl⟩
    · exact hw
    · exact hname rfl hnone hw
  | setAttribute v key a => exact frames_setAttribute hwriting v key a w
  | deleteAttribute v key => exact frames_deleteAttribute hwriting v key w
  | standIn v => exact .discard (hstandIn v rfl)
  | addRegistry channels => exact keeping_addRegistry hI channels w
  | call r c => exact keeping_call hI c w

theorem layered_deed {d : Deed} (h : d.Founded w) : Frames (Keeping Store.Layered) d.act w := by
  refine keeping_deed Store.invariant_layered attributing_layered.toWriting (fun parts hd hw => ?_)
    (fun _ hnone hw => hw.setName hnone _) fun v _ => frames_standIn attributing_layered v w
  subst hd
  refine hw.createWith nofun fun p hp => ?_
  cases hp
  exact h

/-- Types are younger than their parts, if they were before. -/
theorem Work.layered (h : Work w w') (hw : w.store.Layered) : w'.store.Layered := by
  cases h with
  | deed hd => exact frames_final (layered_deed hd) hw
  | assemble hstore => exact hstore.layered hw
  | besides _ hstore =>
    rw [hstore]
    exact hw.congr rfl

/-- In any run, types are younger than their parts. -/
theorem layered_of_works (h : Works {} w) : w.store.Layered := by
  induction h with
  | refl => exact Store.layered_empty
  | tail _ hwork ih => exact hwork.layered ih

end World

end Nominal
