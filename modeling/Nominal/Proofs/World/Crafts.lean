import Nominal.Proofs.World.Works

/-!
# Runs with types assembled by hand, of given deeds

As in other runs, types are created and assembled by hand, attributes and tokens are written, and
registries are added and called. Which deeds are done is left open here, and so is what is assembled
when; and an object that is assembled by hand carries a token that was made, its own or that of
another object, or none, and is given no parts but such as were there before it.

## Main results

* `Crafts.mono`: a run in which less is done is a run.
* `of_crafts`: what each step keeps holds in every run.
* `unrefused_of_crafts`: in no run is the description of a type refused.
-/

namespace Nominal

theorem Store.Assembles.unrefused {s s' : Store} (h : s.Assembles s') (hs : s.Unrefused) :
    s'.Unrefused := by
  cases h with
  | bare => exact hs.push nofun
  | byHand => exact Unrefused.push (s := (s.newToken false).2) hs nofun
  | sharing => exact hs.push nofun
  | rewriting t _ | furnishing t _ =>
    refine hs.modify_of_eq ?_ t
    exact fun _ => rfl

namespace World

variable {admits admits' : World → Deed → Prop} {allows allows' : Store → Store → Prop}
  {w w' : World}

/-- Something is done from outside that is admitted, with or without a result; or a type object is
assembled by hand in a way that is allowed, with a token that was made, if with any; or something
else happens: tokens are made, and anything outside the store changes. -/
inductive Craft (admits : World → Deed → Prop) (allows : Store → Store → Prop) (w : World) :
    World → Prop where
  /-- Something is done from outside. -/
  | deed {d : Deed} (h : admits w d) : Craft admits allows w (final d.act w)
  /-- A type object is assembled by hand. -/
  | assemble {store : Store} (h : w.store.Assembles store)
      (hmade : ∀ k, store.token? ⟨w.store.cells.size⟩ = some k → k.serial < store.nextSerial)
      (hallowed : allows w.store store) : Craft admits allows w { w with store := store }
  /-- Something else happens. -/
  | besides {w' : World} {serial : Nat} (hle : w.store.nextSerial ≤ serial)
      (hstore : w'.store = { w.store with nextSerial := serial }) : Craft admits allows w w'

/-- Any number of such steps. -/
abbrev Crafts (admits : World → Deed → Prop) (allows : Store → Store → Prop) :
    World → World → Prop :=
  Relation.ReflTransGen (Craft admits allows)

/-- Types may be assembled in any way, and at any time. -/
abbrev Anyhow : Store → Store → Prop := fun _ _ => True

theorem Craft.mono (hle : ∀ w d, admits w d → admits' w d)
    (hway : ∀ s s', allows s s' → allows' s s') (h : Craft admits allows w w') :
    Craft admits' allows' w w' := by
  cases h with
  | deed h => exact .deed (hle w _ h)
  | assemble h hmade hallowed => exact .assemble h hmade (hway _ _ hallowed)
  | besides h hstore => exact .besides h hstore

/-- A run in which less is done is a run. -/
theorem Crafts.mono (hle : ∀ w d, admits w d → admits' w d)
    (hway : ∀ s s', allows s s' → allows' s s') (h : Crafts admits allows w w') :
    Crafts admits' allows' w w' :=
  Relation.ReflTransGen.mono (fun _ _ hstep => hstep.mono hle hway) _ _ h

/-- What holds of the empty store and is kept by all that is admitted, by what is assembled by hand
and by the making of tokens holds in every run. -/
theorem of_crafts {I : Store → Prop} (hempty : I {})
    (hdeed : ∀ {w d}, admits w d → Frames (Keeping I) d.act w)
    (hassemble : ∀ {s s' : Store}, s.Assembles s' → allows s s' →
      (∀ k, s'.token? ⟨s.cells.size⟩ = some k → k.serial < s'.nextSerial) → I s → I s')
    (htokens : ∀ {s : Store} {serial : Nat}, s.nextSerial ≤ serial → I s →
      I { s with nextSerial := serial }) (h : Crafts admits allows {} w) : I w.store := by
  induction h with
  | refl => exact hempty
  | tail _ hstep ih =>
    cases hstep with
    | deed hd => exact frames_final (hdeed hd) ih
    | assemble hstore hmade hallowed => exact hassemble hstore hallowed hmade ih
    | besides hle hstore =>
      rw [hstore]
      exact htokens hle ih

/-- In no run is the description of a type refused. -/
theorem unrefused_of_crafts (h : Crafts admits allows {} w) : w.store.Unrefused :=
  of_crafts unrefused_empty (fun {w d} _ => (wrote_deed d w).mono fun _ hw => hw.unrefused)
    (fun hstore _ _ => hstore.unrefused) (fun _ hs => hs) h

end World

end Nominal
