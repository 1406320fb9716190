import Nominal.Proofs.Catalog.Refusals
import Nominal.Proofs.Value.Showing
import Nominal.Value.Attribute

/-!
# Why a value fails

Values can lack a hash, an attribute or a text, or turn down what they are given. None of this is a
refusal: a refusal is for a reason that lies with types and names.

## Main results

* `Heap.errsOnly_hash` and `Heap.errsOnly_kindOf`: hashing a value and finding its kind.
* `Heap.errsOnly_setField` and `Heap.errsOnly_deleteField`: writing and removing its attributes.
* `Showing.errsOnly_outcome`: showing it.
-/

namespace Nominal

/-! ### Hashes and kinds -/

namespace Heap

variable (h : Heap) (tokenOf : TypeId → Option Token)

theorem errsOnly_operate (a v : Value) : ErrsOnly Failure.Unrefused (h.operate a v) := by
  unfold operate
  split
  · next outcome _ =>
    cases outcome with
    | ok c => exact .ok c
    | error e => exact .error e.2
  · split
    · exact .ok _
    · exact .error Failure.unrefused_unsuitable

/-- What a class defines for its instances never ends in a refusal. -/
theorem errsOnly_of_said? {key : String} {v : Value} {outcome : Except Failure String}
    (hsaid : h.said? key v = some outcome) : ErrsOnly Failure.Unrefused outcome := by
  obtain ⟨a, -, rfl⟩ := Option.map_eq_some_iff.1 hsaid
  refine .bind (h.errsOnly_operate a v) fun c => ?_
  split
  · exact .ok _
  · exact .error Failure.unrefused_unsuitable

theorem errsOnly_of_ownHash? {v : Value} {outcome : Except Failure Int}
    (hown : h.ownHash? v = some outcome) : ErrsOnly Failure.Unrefused outcome := by
  obtain ⟨a, -, rfl⟩ := Option.map_eq_some_iff.1 hown
  refine .bind (h.errsOnly_operate a v) fun c => ?_
  split
  · exact .ok _
  · exact .ok _
  · exact .error Failure.unrefused_unsuitable

mutual

/-- A value has no hash for want of a token, because it has none, or because its class says so. -/
theorem errsOnly_hash (v : Value) : ErrsOnly Failure.Unrefused (h.hash tokenOf v) := by
  unfold hash
  split
  · next hown => exact .error (h.errsOnly_of_ownHash? hown _ rfl)
  · exact .ok ()
  match v with
  | .type t =>
    dsimp only
    split
    · exact .ok ()
    · exact .error Failure.unrefused_missingAttribute
  | .derived _ _ content => exact errsOnly_hash content
  | .tuple _ items => exact errsOnly_hashAll items
  | .method _ callee _ => exact errsOnly_hash callee
  | .list _ _ | .set _ _ | .mapping _ _ | .buffer _ _ => exact .error Failure.unrefused_unsuitable
  | .scalar _ _ | .token _ | .builtinClass _ | .builtinFunction _ | .ellipsis | .cls _ | .inst _ _
  | .function _ | .appender _ _ | .accessor _ _ | .frozenSet _ _ | .range _ _ _ _ | .plain _
  | .failure _ _ _ => exact .ok ()

theorem errsOnly_hashAll (vs : List Value) : ErrsOnly Failure.Unrefused (h.hashAll tokenOf vs) := by
  match vs with
  | [] => exact .ok ()
  | v :: vs =>
    rw [hashAll]
    exact .bind (errsOnly_hash v) fun _ => errsOnly_hashAll vs

end

theorem errsOnly_kindOf (v : Value) : ErrsOnly Failure.Unrefused (h.kindOf v) := by
  unfold kindOf
  split
  · split
    · next hown => exact .error (h.errsOnly_of_ownHash? hown _ rfl)
    · exact .ok none
  · exact .ok v.kind?

end Heap

/-! ### Attributes -/

namespace Access

theorem errsOnly_only (p : Value → Bool) (v : Value) : ErrsOnly Failure.Unrefused (only p v) := by
  unfold only
  split
  · exact .ok ()
  · exact .error Failure.unrefused_unsuitable

theorem errsOnly_aName (v : Value) : ErrsOnly Failure.Unrefused (aName v) := by
  have htext : ErrsOnly Failure.Unrefused v.asText := by
    unfold Value.asText
    cases v.text? with
    | some s => exact .ok s
    | none => exact .error Failure.unrefused_unsuitable
  refine htext.bind fun s => ?_
  split
  · exact .error Failure.unrefused_malformed
  · exact .ok ()

/-- What a value accepts or not under a key is no matter of types: nothing is refused. -/
structure Unrefused (a : Access) : Prop where
  /-- An attribute is closed for another reason. -/
  closed : ∀ {e : Failure}, a = .closed e → e.Unrefused
  /-- A value is turned down for another reason. -/
  optional : ∀ {check}, a = .optional check → ∀ v, ErrsOnly Failure.Unrefused (check v)
  /-- A value is turned down for another reason. -/
  kept : ∀ {check}, a = .kept check → ∀ v, ErrsOnly Failure.Unrefused (check v)

theorem unrefused_free : Unrefused free := ⟨nofun, nofun, nofun⟩

theorem unrefused_closed {e : Failure} (h : e.Unrefused) : Unrefused (closed e) :=
  ⟨fun heq => Access.closed.inj heq ▸ h, nofun, nofun⟩

theorem unrefused_optional {check : Value → Except Failure Unit}
    (h : ∀ v, ErrsOnly Failure.Unrefused (check v)) : Unrefused (optional check) :=
  ⟨nofun, fun heq => Access.optional.inj heq ▸ h, nofun⟩

theorem unrefused_kept {check : Value → Except Failure Unit}
    (h : ∀ v, ErrsOnly Failure.Unrefused (check v)) : Unrefused (kept check) :=
  ⟨nofun, nofun, fun heq => Access.kept.inj heq ▸ h⟩

theorem unrefused_anything : Unrefused (optional anything) ∧ Unrefused (kept anything) :=
  ⟨unrefused_optional fun _ => .ok (), unrefused_kept fun _ => .ok ()⟩

end Access

namespace Heap

open Access

theorem unrefused_functionAccess (key : String) : (functionAccess key).Unrefused := by
  unfold functionAccess
  repeat' split
  · exact unrefused_closed Failure.unrefused_unsuitable
  · exact unrefused_kept (errsOnly_only _)
  · exact unrefused_anything.1
  · exact unrefused_kept (errsOnly_only _)
  · exact unrefused_optional (errsOnly_only _)
  · exact unrefused_optional (errsOnly_only _)
  · exact unrefused_closed Failure.unrefused_missingAttribute
  · exact unrefused_free

theorem unrefused_classAccess (special : Bool) (key : String) :
    (classAccess special key).Unrefused := by
  unfold classAccess
  repeat' split
  · exact unrefused_closed Failure.unrefused_unsuitable
  · exact unrefused_closed Failure.unrefused_missingAttribute
  · exact unrefused_free
  · exact unrefused_anything.2
  · exact unrefused_kept errsOnly_aName
  · exact unrefused_kept (errsOnly_only _)
  · exact unrefused_free

theorem errsOnly_items (v : Value) : ErrsOnly Failure.Unrefused v.items := by
  unfold Value.items
  split
  any_goals exact .ok _
  · dsimp only
    split
    · exact .error Failure.unrefused_outOfRange
    · split
      · exact .error Failure.unrefused_exhausted
      · exact .ok _
  · exact .error Failure.unrefused_unsuitable

theorem unrefused_failureAccess (name key : String) : (failureAccess name key).Unrefused := by
  unfold failureAccess
  repeat' split
  · exact unrefused_kept fun v => (errsOnly_items v).bind fun _ => .ok ()
  · exact unrefused_kept (errsOnly_only _)
  · exact unrefused_kept (errsOnly_only _)
  · exact unrefused_kept (errsOnly_only _)
  · exact unrefused_kept (errsOnly_only _)
  · exact unrefused_anything.1
  · exact unrefused_free

theorem unrefused_access (h : Heap) (v : Value) (key : String) : (h.access v key).Unrefused := by
  have hbuiltin : (if key = Key.cls then closed .unsuitable
      else if key = Key.module then optional anything
      else closed .missingAttribute).Unrefused := by
    repeat' split
    · exact unrefused_closed Failure.unrefused_unsuitable
    · exact unrefused_anything.1
    · exact unrefused_closed Failure.unrefused_missingAttribute
  unfold access
  split
  · exact unrefused_classAccess _ _
  · exact unrefused_classAccess _ _
  · exact unrefused_classAccess _ _
  · exact unrefused_closed Failure.unrefused_unsuitable
  · exact unrefused_functionAccess key
  · exact hbuiltin
  · exact hbuiltin
  · repeat' split
    · exact unrefused_closed Failure.unrefused_unsuitable
    · exact unrefused_closed Failure.unrefused_missingAttribute
    · exact unrefused_free
    · exact unrefused_closed Failure.unrefused_missingAttribute
    · exact unrefused_failureAccess _ key
    · exact unrefused_optional (errsOnly_only _)
    · exact unrefused_closed Failure.unrefused_missingAttribute
    · exact unrefused_free
    · exact unrefused_free

theorem errsOnly_reclass (h : Heap) (v cls : Value) :
    ErrsOnly Failure.Unrefused (h.reclass v cls) := by
  unfold reclass
  repeat' split
  · exact .ok _
  · exact .error Failure.unrefused_unsuitable
  · exact .error Failure.unrefused_unsuitable

theorem errsOnly_rebase (h : Heap) (o : ObjectId) (v : Value) :
    ErrsOnly Failure.Unrefused (h.rebase o v) := by
  unfold rebase
  repeat' split
  · exact .error Failure.unrefused_unsuitable
  · exact .ok _
  · exact .ok _
  · exact .error Failure.unrefused_unsuitable
  · exact .error Failure.unrefused_unsuitable

/-- An attribute is not written where the value does not accept it. -/
theorem errsOnly_setField (h : Heap) (v : Value) (key : String) (w : Value) :
    ErrsOnly Failure.Unrefused (h.setField v key w) := by
  have hplain : ErrsOnly Failure.Unrefused (h.setPlain v key w) := by
    have haccess := h.unrefused_access v key
    unfold setPlain
    split
    · exact .ok _
    · next heq => exact (haccess.optional heq w).bind fun _ => .ok _
    · next heq => exact (haccess.kept heq w).bind fun _ => .ok _
    · next heq => exact .error (haccess.closed heq)
  unfold setField
  split
  · split
    · exact errsOnly_rebase h _ w
    · exact hplain
  · split
    · exact errsOnly_reclass h v w
    · exact hplain

/-- An attribute is not removed where the value has none or keeps it. -/
theorem errsOnly_deleteField (h : Heap) (v : Value) (key : String) :
    ErrsOnly Failure.Unrefused (h.deleteField v key) := by
  have haccess := h.unrefused_access v key
  unfold deleteField
  split
  · split
    · exact .ok _
    · exact .error Failure.unrefused_missingAttribute
  · exact .ok _
  · exact .error Failure.unrefused_unsuitable
  · next heq => exact .error (haccess.closed heq)

end Heap

/-! ### Texts -/

namespace Showing

variable {α : Type} {h : Heap} {s : Store}

/-- Showing something is not refused. -/
abbrev NotRefused (showing : Showing α) : Prop :=
  FailsOnly (fun _ => True) Failure.Unrefused showing

theorem notRefused_need (o : Option α) : NotRefused (need o) := by
  cases o with
  | none => exact .throw Failure.unrefused_missingAttribute
  | some a => exact .pure a

theorem notRefused_given {o : Except Failure α} (h : ErrsOnly Failure.Unrefused o) :
    NotRefused (given o) := by
  cases o with
  | ok a => exact .pure a
  | error e => exact .throw (h e rfl)

theorem notRefused_note (h : Heap) (o : ObjectId) : NotRefused (note h o) := by
  unfold note
  split
  · exact .modify fun _ _ => trivial
  · exact .pure ()

/-- A value cannot be shown for want of an attribute or a text, or because its class says so. -/
theorem stepwise_notRefused (h : Heap) (s : Store) : Stepwise h s NotRefused where
  pure := .pure
  bind := .bind
  text := fun t => notRefused_given (Store.errsOnly_text id s t)
  serial := fun k => notRefused_need (s.serial? k)
  saying := fun hsaid => notRefused_given (h.errsOnly_of_said? hsaid)
  note := notRefused_note h

/-- What showing gives fails for the reason that showing does. -/
theorem errsOnly_outcome {showing : Showing α} (h : NotRefused showing) :
    ErrsOnly Failure.Unrefused showing.outcome.1 := by
  unfold outcome
  cases hrun : showing.run #[] with
  | ok a noted => exact .ok a
  | error e noted => exact .error (h.of_run trivial hrun)

end Showing

end Nominal
