import Nominal.Proofs.Catalog.Invariants
import Nominal.Proofs.World.Calls

/-!
# Invariants of the store, in a world

A registry changes the store through its catalog, by creating a type for a value, and by binding a
type to a class when this is registered. So an invariant of the store is kept by all that a registry
does, also where it fails.

## Main results

* `elementary_keeping`: what is kept by each change that a registry makes.
* `keeping_call` and `keeping_addRegistry`: what is kept by the calls of a registry.
-/

namespace Nominal.World

variable {α : Type} {r : Nat} {I : Store → Prop}

/-- What holds of the store still holds of it. -/
def Keeping (I : Store → Prop) (w w' : World) : Prop := I w.store → I w'.store

instance (I : Store → Prop) : IsPreorder World (Keeping I) where
  refl := fun _ => id
  trans := fun _ _ _ h h' hw => h' (h hw)

theorem keeping_inCatalog {act : Catalog.Action α} (h : ∀ c, Frames (Catalog.Keeping I) act c)
    (w : World) : Frames (Keeping I) (inCatalog r act) w :=
  frames_inCatalog_of_run fun {reg} _ => (h (w.catalog reg)).mono fun _ hc => hc

section Invariant

variable (hI : Store.Invariant I)
include hI

/-- Whatever a registry does, to whichever value, keeps an invariant. -/
theorem elementary_keeping (r : Nat) : Elementary r (fun _ => True) (Keeping I) where
  events := fun _ _ => id
  cache := fun _ _ _ _ _ => id
  hook := fun _ _ => frames_runHook_of_cache (fun _ _ => id) fun {_ _ _} _ _ => id
  create := fun _ hw => hI.create hw
  named := fun name => keeping_inCatalog (Catalog.keeping_named hI name)
  primitive := fun p => keeping_inCatalog (Catalog.frames_primitive p)
  resolve := fun strict text => keeping_inCatalog (Catalog.keeping_resolve hI strict text)
  intern := fun base args => keeping_inCatalog (Catalog.keeping_intern hI base args)

theorem keeping_call (c : Call) (w : World) : Frames (Keeping I) (c.act r) w :=
  frames_call (elementary_keeping hI r)
    (fun name t _ => keeping_inCatalog (Catalog.keeping_bindName name t) w)
    (fun _ => keeping_inCatalog (fun _ => Catalog.frames_reserveName id) w)
    (fun {name cls} _ _ => frames_registerClass (elementary_keeping hI r)
      (fun _ t hw => hI.describe t (fun c => Store.redescribes_of_setConstructor c cls) hw) trivial
      name w)
    (Call.binds_of_forall (fun _ => trivial) w c)

theorem keeping_addRegistry (channels : Channels) (w : World) :
    Frames (Keeping I) (addRegistry channels) w :=
  .get_bind (.bind (.modify id) fun _ w₁ _ => keeping_inCatalog (Catalog.keeping_seed hI) w₁)

end Invariant

end Nominal.World
