import Nominal.Proofs.World.Instances
import Nominal.Proofs.World.Outcomes

/-!
# What a registration returns

A class that was registered is the one that the returned type is bound to. The registry binds the
class to the type as well, unless it finds the type bound to the class already: then it returns the
type at once and takes for granted that it holds the binding. The class that a type is bound to is
known to all registries and the binding of the class to one, so a class that was registered in one
registry can be registered in another one that has no binding of it, and gets none.

## Main results

* `registration_binds`: what a registration that returned has bound, in any world.
* `registered_not_bound`: a class that was registered in two registries and bound in one.
-/

namespace Nominal.World

variable {r : Nat} {w w' : World} {t : TypeId} {cls : Value} {name : String}

/-- A type is bound to a class, and the registry has no binding of the class. -/
def BoundElsewhere (w : World) (r : Nat) (t : TypeId) (cls : Value) : Prop :=
  (∃ v, w.store.constructor? t = some (some v) ∧ v.same cls = true) ∧ w.bound? r cls.entity = none

/-- Parsing binds nothing, and takes no binding away. -/
theorem bound?_of_run_parse {q : Nat} (h : (parse q name).run w = .ok t w') (e : Entity) :
    w'.bound? r e = w.bound? r e := by
  obtain ⟨reg, w₁, hreg, hresolve⟩ := exists_of_run_bind h
  obtain ⟨rfl, -⟩ := registry_ok hreg
  obtain ⟨-, c, -, -, rfl⟩ := exists_run_of_inCatalog hresolve
  exact bound?_withCatalog w₁ q c e

/-- A class that is bound is restored, and classified by what it is bound to. -/
theorem run_of_bound? (hcls : cls.isClass = true) (h : w.bound? r cls.entity = some t) :
    (restore r cls).run w = .ok (some t) w ∧ (typeOf r cls).run w = .ok t w := by
  obtain ⟨reg, hreg⟩ := exists_registry_of_bound? h
  refine ⟨?_, ?_⟩
  · rw [run_restore hreg, h]
  · rw [run_typeOf_of_isClass hcls, run_classType_of_bound h]

/-- A registration that returned a type returned one that is bound to the class. The registry binds
the class to the type if and only if the type was not bound to the class before, or the registry had
a binding of the class. -/
theorem registration_binds (hcls : cls.isClass = true)
    (h : (registerClass r name cls).run w = .ok t w') :
    (∃ v, w'.store.constructor? t = some (some v) ∧ v.same cls = true) ∧
      (¬w.BoundElsewhere r t cls →
        (restore r cls).run w' = .ok (some t) w' ∧ (typeOf r cls).run w' = .ok t w') ∧
      (w.BoundElsewhere r t cls → (restore r cls).run w' = .ok none w') := by
  obtain ⟨t₁, w₁, current, found, hparse, hcurrent, -, hrestore, hfound, henroll⟩ :=
    exists_of_run_registerClass h
  have hsame : ∀ u v, w₁.store.constructor? u = some (some v) ↔
      w.store.constructor? u = some (some v) :=
    ((frames_parse (elementary_keepsClasses r) name w).of_run hparse).constructors
  have hbound := bound?_of_run_parse (r := r) hparse cls.entity
  by_cases hagain : (current.getD .nothing).same cls = true
  · rw [enroll, if_pos hagain] at henroll
    obtain ⟨rfl, rfl⟩ := EStateM.Result.ok.inj henroll
    obtain ⟨v, rfl, hv⟩ := exists_current_of_same hcls hagain
    obtain ⟨-, rfl, reg, hreg⟩ := restore_ok hrestore
    refine ⟨⟨v, hcurrent, hv⟩, fun helse => ?_, fun helse => ?_⟩
    · rcases hfound with hnone | hsome
      · exact absurd ⟨⟨v, (hsame _ _).1 hcurrent, hv⟩, hbound ▸ hnone⟩ helse
      · exact run_of_bound? hcls hsome
    · rw [run_restore hreg, hbound, helse.2]
  · obtain ⟨rfl, hconstructor, hbound'⟩ :=
      bound?_of_run_enroll hcls hcurrent hagain hrestore hfound henroll
    refine ⟨⟨cls, hconstructor, decide_eq_true rfl⟩, fun _ => run_of_bound? hcls hbound',
      fun helse => ?_⟩
    -- the type was bound to the class, and yet it was not found so
    obtain ⟨⟨v, hold, hv⟩, -⟩ := helse
    rw [← hsame, hcurrent] at hold
    cases hold
    exact absurd hv hagain

/-- Two registries beside a class. -/
def galleries : World :=
  final (addRegistry {}) (final (addRegistry {}) { heap := plane.heap })

/-- The class was registered as `Point` in the first registry, and its type is called `Point` in the
second one, too. -/
def lent : World :=
  final (Deed.call 1 (.bindName "Point" ⟨24⟩)).act
    (final (Deed.call 0 (.registerClass "Point" (.cls ⟨1⟩))).act galleries)

theorem boundElsewhere_lent : lent.BoundElsewhere 1 ⟨24⟩ (.cls ⟨1⟩) := by
  refine ⟨?_, by decide +kernel⟩
  have hread : ((lent.store.constructor? ⟨24⟩).bind fun current =>
      current.map (·.same (.cls ⟨1⟩))) = some true := by decide +kernel
  obtain ⟨current, hcurrent, hsame⟩ := Option.bind_eq_some_iff.1 hread
  obtain ⟨v, rfl, hv⟩ := Option.map_eq_some_iff.1 hsame
  exact ⟨v, hcurrent, hv⟩

/-- Registered for the first time, the class is bound. Registered in the second registry, it is not.
-/
theorem registration_binds_lent :
    (∃ w, (registerClass 0 "Point" (.cls ⟨1⟩)).run galleries = .ok ⟨24⟩ w ∧
      (restore 0 (.cls ⟨1⟩)).run w = .ok (some ⟨24⟩) w ∧
      (typeOf 0 (.cls ⟨1⟩)).run w = .ok ⟨24⟩ w) ∧
    ∃ w, (registerClass 1 "Point" (.cls ⟨1⟩)).run lent = .ok ⟨24⟩ w ∧
      (∃ v, w.store.constructor? ⟨24⟩ = some (some v) ∧ v.same (.cls ⟨1⟩) = true) ∧
      (restore 1 (.cls ⟨1⟩)).run w = .ok none w := by
  have hfirst : returned? (registerClass 0 "Point" (.cls ⟨1⟩)) galleries = some ⟨24⟩ := by
    decide +kernel
  have hsecond : returned? (registerClass 1 "Point" (.cls ⟨1⟩)) lent = some ⟨24⟩ := by
    decide +kernel
  have hnew : (galleries.store.constructor? ⟨24⟩).isNone = true := by decide +kernel
  have hbound := registration_binds rfl (run_of_returned? hfirst)
  have hkept := registration_binds rfl (run_of_returned? hsecond)
  refine ⟨⟨_, run_of_returned? hfirst, hbound.2.1 fun ⟨⟨v, hv, _⟩, _⟩ => ?_⟩,
    ⟨_, run_of_returned? hsecond, hkept.1, hkept.2.2 boundElsewhere_lent⟩⟩
  rw [hv] at hnew
  cases hnew

/-- A class that was registered need not be bound in the registry. -/
theorem registered_not_bound : ¬∀ (w w' : World) (r : Nat) (name : String) (cls : Value)
    (t : TypeId), Mints {} w → cls.isClass = true → (registerClass r name cls).run w = .ok t w' →
    (restore r cls).run w' = .ok (some t) w' := by
  intro hbinds
  have hheap : Mints {} { heap := plane.heap } :=
    .single (.besides (Nat.le_refl _) rfl fun _ => rfl)
  have hregistries : Mints {} galleries :=
    .tail (.tail hheap (.deed (d := .addRegistry {}) trivial))
      (.deed (d := .addRegistry {}) trivial)
  have hregistered :
      Mints {} (final (Deed.call 0 (.registerClass "Point" (.cls ⟨1⟩))).act galleries) :=
    .tail hregistries (.deed (d := .call 0 (.registerClass "Point" (.cls ⟨1⟩))) trivial)
  have hlive : 24 < (final (Deed.call 0 (.registerClass "Point" (.cls ⟨1⟩))).act
      galleries).store.cells.size := by decide +kernel
  have hlent : Mints {} lent :=
    .tail hregistered (.deed (d := .call 1 (.bindName "Point" ⟨24⟩)) hlive)
  have hreturned : returned? (registerClass 1 "Point" (.cls ⟨1⟩)) lent = some ⟨24⟩ := by
    decide +kernel
  have hloose : returned? (restore 1 (.cls ⟨1⟩))
      (final (registerClass 1 "Point" (.cls ⟨1⟩)) lent) = some none := by decide +kernel
  cases (run_of_returned? hloose).symm.trans
    (hbinds lent _ 1 "Point" (.cls ⟨1⟩) ⟨24⟩ hlent rfl (run_of_returned? hreturned))

end Nominal.World
