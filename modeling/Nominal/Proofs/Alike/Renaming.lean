import Mathlib.Order.WellFounded
import Nominal.Proofs.Alike.Stores
import Nominal.Proofs.Identity.Labels

/-!
# Stores up to renaming

Two stores can hold the same types at different places and with different serials, in the same
order. What is created next in both goes to the next place of each, so such stores stay the same up
to one renaming, which is fixed beforehand. What is not renamed is the name of a type, and whatever
was there at the start; the serial of a type without a name is part of its text.

## Main results

* `Store.Renamed`: the same types at other places.
* `Store.Renamed.alike_labelWithin`: types are called the same, up to serials.
* `kept_renamed`: what registries do keeps the stores the same.
-/

namespace Nominal

open Relator (BiUnique)

/-! ### Renamings -/

/-- Other places for types and other serials for tokens, in the same order. -/
structure Renaming where
  /-- The place of a type. -/
  type : Nat → Nat
  /-- The serial of a token. -/
  serial : Nat → Nat
  /-- The order of types is kept. -/
  type_strictMono : StrictMono type
  /-- The order of tokens is kept. -/
  serial_strictMono : StrictMono serial

namespace Renaming

variable (ρ : Renaming)

/-- Nothing is renamed. -/
def refl : Renaming := ⟨id, id, strictMono_id, strictMono_id⟩

/-- The type at another place. -/
def onType (t : TypeId) : TypeId := ⟨ρ.type t.index⟩

/-- The token with another serial. -/
def onToken (k : Token) : Token := { k with serial := ρ.serial k.serial }

/-- The parts at other places. -/
def onParts (parts : TypeParts) : TypeParts :=
  ⟨parts.base.map ρ.onType, parts.args.map (Option.map ρ.onType)⟩

/-- The parts at other places, if there are any. -/
def onSlot : Slot TypeParts → Slot TypeParts
  | .absent => .absent
  | .empty => .empty
  | .holds parts => .holds (ρ.onParts parts)

theorem refl_onSlot (parts : Slot TypeParts) : refl.onSlot parts = parts := by
  cases parts with
  | absent => rfl
  | empty => rfl
  | holds parts =>
    have htype : refl.onType = id := rfl
    simp [onSlot, onParts, htype]

theorem onType_injective : Function.Injective ρ.onType := fun t u h => by
  cases t
  cases u
  exact congrArg TypeId.mk (ρ.type_strictMono.injective (TypeId.mk.inj h))

theorem onToken_injective : Function.Injective ρ.onToken := fun k l h => by
  cases k
  cases l
  obtain ⟨hserial, hminted⟩ := Token.mk.inj h
  exact congrArg₂ Token.mk (ρ.serial_strictMono.injective hserial) hminted

/-- Two renamings rename the same types and tokens alike, as far as these were made. -/
def AgreeBelow (ρ ρ' : Renaming) (made : Nat × Nat) : Prop :=
  (∀ n < made.1, ρ'.type n = ρ.type n) ∧ ∀ n < made.2, ρ'.serial n = ρ.serial n

/-- Types and tokens from the given ones on are renamed to later ones. -/
def raise (made later : Nat × Nat) : Renaming where
  type n := if n < made.1 then ρ.type n else ρ.type n + later.1
  serial n := if n < made.2 then ρ.serial n else ρ.serial n + later.2
  type_strictMono := fun m n h => by
    have := ρ.type_strictMono h
    dsimp only
    split <;> split <;> omega
  serial_strictMono := fun m n h => by
    have := ρ.serial_strictMono h
    dsimp only
    split <;> split <;> omega

theorem agreeBelow_raise (made later : Nat × Nat) : ρ.AgreeBelow (ρ.raise made later) made :=
  ⟨fun _ h => if_pos h, fun _ h => if_pos h⟩

end Renaming

/-! ### Texts -/

/-- Two texts differ in the serials of types without a name, as far as these were made. -/
inductive Respelled (rename : Nat → Nat) (made : Nat → Prop) : String → String → Prop where
  /-- The texts are the same. -/
  | same (s : String) : Respelled rename made s s
  /-- Both texts stand for a type without a name. -/
  | anonymous {n : Nat} (h : made n) : Respelled rename made
      ("<anonymous #" ++ toString n ++ ">") ("<anonymous #" ++ toString (rename n) ++ ">")
  /-- The texts are put together of such texts. -/
  | append {s s' u u' : String} (hs : Respelled rename made s s')
      (hu : Respelled rename made u u') : Respelled rename made (s ++ u) (s' ++ u')

theorem Respelled.mono {rename rename' : Nat → Nat} {made made' : Nat → Prop} {s s' : String}
    (h : Respelled rename made s s') (hmade : ∀ n, made n → made' n ∧ rename' n = rename n) :
    Respelled rename' made' s s' := by
  induction h with
  | same s => exact .same s
  | anonymous hn =>
    obtain ⟨hn', hrename⟩ := hmade _ hn
    rw [← hrename]
    exact .anonymous hn'
  | append _ _ ihs ihu => exact .append ihs ihu

/-- Two labels are the same, or texts that differ in serials. -/
inductive Label.Respelled (X : String → String → Prop) : Label → Label → Prop where
  /-- The labels are the same. -/
  | same (l : Label) : Respelled X l l
  /-- The labels are texts that are related. -/
  | text {s s' : String} (h : X s s') : Respelled X (.ofText s) (.ofText s')

theorem Label.Respelled.spelling {X : String → String → Prop} {l l' : Label} (hX : ∀ s, X s s)
    (h : Label.Respelled X l l') : X l.spelling l'.spelling := by
  cases h with
  | same l => exact hX _
  | text h => exact h

theorem Label.Respelled.text? {X : String → String → Prop} {l l' : Label} (hX : ∀ s, X s s)
    (h : Label.Respelled X l l') : Option.Rel X l.text? l'.text? := by
  cases h with
  | same l =>
    cases l.text? with
    | none => exact .none
    | some s => exact .some (hX s)
  | text h => exact .some h

/-! ### Stores -/

/-- A type that has a token and parts had these before it was there itself. -/
structure TypeCell.Grounded (c : TypeCell) (index nextSerial : Nat) : Prop where
  /-- The token was made. -/
  token : ∀ k, c.token = some k → k.serial < nextSerial
  /-- The parts are older. -/
  parts : ∀ parts, c.parts = .holds parts → ∀ u ∈ parts.types, u.index < index

/-- Each type is newer than its token and its parts, and the tokens that show another serial were
made. -/
structure Store.Grounded (s : Store) : Prop where
  /-- A serial is kept for what is no token. -/
  pos : 0 < s.nextSerial
  /-- Types are newer than their tokens and parts. -/
  cell : ∀ {t c}, s.cell? t = some c → c.Grounded t.index s.nextSerial
  /-- Tokens that show another serial were made. -/
  relabelled : ∀ {n label}, (n, label) ∈ s.relabelled → n < s.nextSerial

/-- Two type objects are the same up to a renaming. -/
structure TypeCell.Renamed (ρ : Renaming) (c c' : TypeCell) : Prop where
  /-- Their tokens are the same. -/
  token : c'.token = c.token.map ρ.onToken
  /-- Their names are the same. -/
  name : c'.name = c.name
  /-- Their parts are the same. -/
  parts : c'.parts = ρ.onSlot c.parts
  /-- They can be described or not. -/
  undescribable : c'.undescribable = c.undescribable

/-- What there was at the start is not renamed, and what is created next in one store is what is
created next in the other. -/
structure Renaming.Fits (ρ : Renaming) (start s s' : Store) : Prop where
  /-- The first types keep their places. -/
  types_fixed : ∀ n < start.cells.size, ρ.type n = n
  /-- The first tokens keep their serials. -/
  serials_fixed : ∀ n < start.nextSerial, ρ.serial n = n
  /-- No type is lost. -/
  size : start.cells.size ≤ s.cells.size
  /-- No serial is taken again. -/
  serial : start.nextSerial ≤ s.nextSerial
  /-- New types take the next places. -/
  types_next : ∀ n, ρ.type (s.cells.size + n) = s'.cells.size + n
  /-- New tokens take the next serials. -/
  serials_next : ∀ n, ρ.serial (s.nextSerial + n) = s'.nextSerial + n

theorem Renaming.Fits.createWith {ρ : Renaming} {start s s' : Store} (h : ρ.Fits start s s')
    (parts parts' : Slot TypeParts) :
    ρ.Fits start (s.createWith parts).2 (s'.createWith parts').2 where
  types_fixed := h.types_fixed
  serials_fixed := h.serials_fixed
  size := by
    rw [Store.size_createWith]
    exact Nat.le_succ_of_le h.size
  serial := Nat.le_succ_of_le h.serial
  types_next := fun n => by
    rw [Store.size_createWith, Store.size_createWith, Nat.add_assoc, h.types_next]
    omega
  serials_next := fun n => by
    have hs : (s.createWith parts).2.nextSerial = s.nextSerial + 1 := rfl
    have hs' : (s'.createWith parts').2.nextSerial = s'.nextSerial + 1 := rfl
    rw [hs, hs', Nat.add_assoc, h.serials_next]
    omega

namespace Store

variable {ρ : Renaming} {start s s' : Store} {S : Scope} {mine : TypeId → Prop} {t : TypeId}

/-- Two stores are the same up to a renaming since a start: a type of the first is found in the
second where the renaming says. The types of a registry are bound to the same classes. -/
structure Renamed (ρ : Renaming) (start : Store) (S : Scope) (mine : TypeId → Prop)
    (s s' : Store) : Prop where
  /-- The renaming fits the two stores. -/
  fits : ρ.Fits start s s'
  /-- The first store is well-founded. -/
  grounded : s.Grounded
  /-- Tokens show the serials that they showed. -/
  relabelled : s.relabelled = start.relabelled
  /-- Tokens show the same serials. -/
  relabelled_eq : s'.relabelled = s.relabelled
  /-- Types are found where the renaming says. -/
  cell : ∀ {t c}, s.cell? t = some c → ∃ c', s'.cell? (ρ.onType t) = some c' ∧ c.Renamed ρ c' ∧
    (mine t → c'.constructor = c.constructor)
  /-- The classes of the registry's types are covered. -/
  covered : Covered S mine s
  /-- New types are the registry's. -/
  new : ∀ t : TypeId, s.cells.size ≤ t.index → mine t

/-! ### Growing and changing -/

theorem Grounded.createWith (h : s.Grounded) {parts : Slot TypeParts}
    (hparts : ∀ p, parts = .holds p → ∀ u ∈ p.types, u.index < s.cells.size) :
    (s.createWith parts).2.Grounded where
  pos := Nat.succ_pos _
  cell := fun {t c} hc => by
    rw [cell?_createWith] at hc
    split at hc
    · next heq =>
      cases hc
      refine ⟨?_, ?_⟩
      · rintro k ⟨⟩
        exact Nat.lt_succ_self _
      · rw [heq]
        exact hparts
    · obtain ⟨htoken, hparts⟩ := h.cell hc
      exact ⟨fun k hk => Nat.lt_succ_of_lt (htoken k hk), hparts⟩
  relabelled := fun hn => Nat.lt_succ_of_lt (h.relabelled hn)

theorem Grounded.modify (h : s.Grounded) {f : TypeCell → TypeCell}
    (hf : ∀ c, (f c).token = c.token ∧ (f c).parts = c.parts) : (s.modify t f).Grounded where
  pos := h.pos
  cell := fun {u c} hc => by
    rw [cell?_modify] at hc
    split at hc
    · obtain ⟨c₀, hc₀, rfl⟩ := Option.map_eq_some_iff.1 hc
      obtain ⟨htoken, hparts⟩ := h.cell hc₀
      exact ⟨(hf c₀).1 ▸ htoken, (hf c₀).2 ▸ hparts⟩
    · exact h.cell hc
  relabelled := h.relabelled

/-- Types that are created in both stores, of the same parts. -/
theorem Renamed.createWith (h : Renamed ρ start S mine s s') {parts : Slot TypeParts}
    (hparts : ∀ p, parts = .holds p → ∀ u ∈ p.types, u.index < s.cells.size) :
    Renamed ρ start S mine (s.createWith parts).2 (s'.createWith (ρ.onSlot parts)).2 where
  fits := h.fits.createWith _ _
  grounded := h.grounded.createWith hparts
  relabelled := h.relabelled
  relabelled_eq := h.relabelled_eq
  cell := fun {t c} hc => by
    have hnew : ρ.onType (s.createWith parts).1 = (s'.createWith (ρ.onSlot parts)).1 :=
      congrArg TypeId.mk (h.fits.types_next 0)
    have hserial : ρ.serial s.nextSerial = s'.nextSerial := h.fits.serials_next 0
    rw [cell?_createWith] at hc ⊢
    split at hc
    · next heq =>
      cases hc
      rw [heq, if_pos hnew]
      refine ⟨_, rfl, ⟨?_, rfl, rfl, rfl⟩, fun _ => rfl⟩
      simp [Renaming.onToken, hserial]
    · next hne =>
      rw [if_neg fun heq => hne (ρ.onType_injective (heq.trans hnew.symm))]
      exact h.cell hc
  covered := h.covered.createWith parts
  new := fun t ht => h.new t (by rw [size_createWith] at ht; omega)

/-- A type is changed in both stores in the same way. -/
theorem Renamed.modify (h : Renamed ρ start S mine s s') {f : TypeCell → TypeCell}
    (hf : ∀ c, (f c).token = c.token ∧ (f c).parts = c.parts)
    (hcell : ∀ c c', s.cell? t = some c → c.Renamed ρ c' → (f c).Renamed ρ (f c'))
    (hconstructor : ∀ c c', c'.constructor = c.constructor → (f c').constructor = (f c).constructor)
    (hcovered : ∀ c v, (f c).constructor = .holds v → c.constructor = .holds v ∨ S.Covers v) :
    Renamed ρ start S mine (s.modify t f) (s'.modify (ρ.onType t) f) where
  fits := by
    have hsize := size_modify s t f
    have hsize' := size_modify s' (ρ.onType t) f
    exact ⟨h.fits.types_fixed, h.fits.serials_fixed, hsize ▸ h.fits.size, h.fits.serial,
      hsize ▸ hsize' ▸ h.fits.types_next, h.fits.serials_next⟩
  grounded := h.grounded.modify hf
  relabelled := h.relabelled
  relabelled_eq := h.relabelled_eq
  cell := fun {u c} hc => by
    rw [cell?_modify] at hc ⊢
    split at hc
    · next heq =>
      subst heq
      obtain ⟨c₀, hc₀, rfl⟩ := Option.map_eq_some_iff.1 hc
      obtain ⟨c₀', hc₀', hrenamed, hmine⟩ := h.cell hc₀
      rw [if_pos rfl, hc₀']
      exact ⟨f c₀', rfl, hcell c₀ c₀' hc₀ hrenamed, fun hu => hconstructor _ _ (hmine hu)⟩
    · next hne =>
      rw [if_neg fun heq => hne (ρ.onType_injective heq)]
      exact h.cell hc
  covered := h.covered.modify hcovered
  new := fun u hu => h.new u (by rwa [size_modify] at hu)

/-! ### Reading -/

namespace Renamed

variable (h : Renamed ρ start S mine s s')
include h

theorem exists_cell (ht : t.index < s.cells.size) :
    ∃ c c', s.cell? t = some c ∧ s'.cell? (ρ.onType t) = some c' ∧ c.Renamed ρ c' ∧
      (mine t → c'.constructor = c.constructor) := by
  obtain ⟨c, hc⟩ := exists_cell? ht
  obtain ⟨c', hc', hrest⟩ := h.cell hc
  exact ⟨c, c', hc, hc', hrest⟩

theorem token?_eq (ht : t.index < s.cells.size) :
    s'.token? (ρ.onType t) = (s.token? t).map ρ.onToken := by
  obtain ⟨c, c', hc, hc', hrenamed, -⟩ := h.exists_cell ht
  rw [token?, token?, hc, hc']
  exact hrenamed.token

theorem serial_lt {k : Token} (hk : s.token? t = some k) : k.serial < s.nextSerial := by
  obtain ⟨c, hc, hk⟩ := Option.bind_eq_some_iff.1 hk
  exact (h.grounded.cell hc).token k hk

theorem rel_token? (ht : t.index < s.cells.size) :
    Option.Rel (fun k k' => k.serial < s.nextSerial ∧ k' = ρ.onToken k) (s.token? t)
      (s'.token? (ρ.onType t)) := by
  rw [h.token?_eq ht]
  cases hk : s.token? t with
  | none => exact .none
  | some k => exact .some ⟨h.serial_lt hk, rfl⟩

theorem name?_eq (ht : t.index < s.cells.size) : s'.name? (ρ.onType t) = s.name? t := by
  obtain ⟨c, c', hc, hc', hrenamed, -⟩ := h.exists_cell ht
  rw [name?, name?, hc, hc']
  simp [hrenamed.name]

theorem parts?_eq (ht : t.index < s.cells.size) :
    s'.parts? (ρ.onType t) = (s.parts? t).map (Option.map ρ.onParts) := by
  obtain ⟨c, c', hc, hc', hrenamed, -⟩ := h.exists_cell ht
  rw [parts?, parts?, hc, hc']
  simp only [Option.bind_eq_bind, Option.bind_some, hrenamed.parts]
  cases c.parts <;> rfl

theorem older {parts : TypeParts} (hparts : s.parts? t = some (some parts)) {u : TypeId}
    (hu : u ∈ parts.types) : u.index < t.index := by
  obtain ⟨c, hc, hread⟩ := Option.bind_eq_some_iff.1 hparts
  refine (h.grounded.cell hc).parts parts ?_ u hu
  cases hslot : c.parts <;> simp_all [Slot.read?]

/-- The base of a type was there before the type. -/
theorem rel_base? (ht : t.index < s.cells.size) :
    Option.Rel (fun u u' => u.index < s.cells.size ∧ u' = ρ.onType u) (s.base? t)
      (s'.base? (ρ.onType t)) := by
  rw [base?, base?, h.parts?_eq ht]
  cases hparts : s.parts? t with
  | none => exact .none
  | some parts =>
  cases parts with
  | none => exact .some ⟨ht, rfl⟩
  | some parts =>
  obtain ⟨base, args⟩ := parts
  cases base with
  | none => exact .some ⟨ht, rfl⟩
  | some base => exact .some ⟨lt_trans (h.older hparts (by simp [TypeParts.types])) ht, rfl⟩

/-- The text of a type without a name. -/
theorem alike_serial (hstart : start.Grounded) {k : Token} (hk : k.serial < s.nextSerial) :
    Option.Rel (fun l l' => Respelled ρ.serial (· < s.nextSerial)
        ("<anonymous #" ++ l.spelling ++ ">") ("<anonymous #" ++ l'.spelling ++ ">"))
      (s.serial? k) (s'.serial? (ρ.onToken k)) := by
  have hcarrier : ρ.onToken .carrier = .carrier :=
    congrArg (Token.mk · false) (h.fits.serials_fixed 0 hstart.pos)
  have hiff : ρ.onToken k = .carrier ↔ k = .carrier :=
    ⟨fun hc => ρ.onToken_injective (hc.trans hcarrier.symm), fun hc => hc ▸ hcarrier⟩
  rw [serial?, serial?, h.relabelled_eq, h.relabelled]
  by_cases hc : k = .carrier
  · rw [if_pos hc, if_pos (hiff.2 hc)]
    exact .none
  rw [if_neg hc, if_neg fun hc' => hc (hiff.1 hc')]
  by_cases hfirst : k.serial < start.nextSerial
  · have hsame : (ρ.onToken k).serial = k.serial := h.fits.serials_fixed _ hfirst
    rw [hsame]
    cases (start.relabelled.lookup k.serial).getD (some (.ofNat k.serial)) with
    | none => exact .none
    | some l => exact .some (.same _)
  · -- Neither serial is one of a token that shows another serial.
    have hnone : ∀ n, start.nextSerial ≤ n → start.relabelled.lookup n = none := by
      refine fun n hn => List.lookup_eq_none_iff.2 fun entry hentry => bne_iff_ne.2 ?_
      exact Nat.ne_of_gt (Nat.lt_of_lt_of_le (hstart.relabelled hentry) hn)
    have hle : k.serial ≤ (ρ.onToken k).serial := ρ.serial_strictMono.le_apply
    rw [hnone _ (by omega), hnone _ (by omega)]
    exact .some (.anonymous hk)

omit h in
theorem needed_some_bind {α β : Type} (a : α) (f : α → Except Failure β) :
    (needed (some a) >>= f) = f a := rfl

omit h in
theorem alike_needed {α β : Type} {X : String → String → Prop} {Q : α → β → Prop} {o : Option α}
    {o' : Option β} (ho : Option.Rel Q o o') :
    Parallel (Failure.Alike X) Q (needed o) (needed o') := by
  cases ho with
  | none => exact .error (.same _)
  | some ha => exact .ok ha

omit h in
/-- Labels that are related are texts or not, and related ones. -/
theorem alike_texts {X : String → String → Prop} (hX : ∀ s, X s s) {labels labels' : List Label}
    (hl : List.Forall₂ (Label.Respelled X) labels labels') :
    Option.Rel (List.Forall₂ X) (labels.mapM Label.text?) (labels'.mapM Label.text?) := by
  induction hl with
  | nil => exact .some .nil
  | cons hl _ ih =>
    rw [List.mapM_cons, List.mapM_cons]
    rcases rel_cases (hl.text? hX) with ⟨hn, hn'⟩ | ⟨text, text', ht, ht', htext⟩
    · rw [hn, hn']
      exact .none
    rcases rel_cases ih with ⟨hn, hn'⟩ | ⟨texts, texts', hts, hts', htexts⟩
    · rw [ht, ht', hn, hn']
      exact .none
    · rw [ht, ht', hts, hts']
      exact .some (.cons htext htexts)

omit h in
/-- What a type with parts is called, if its parts are called the same, up to serials. -/
theorem alike_labelOfParts {part part' : Option TypeId → Except Failure Label} {n : Nat}
    {parts : TypeParts} (hpart : ∀ u : Option TypeId, (∀ v, u = some v → v ∈ parts.types) →
      Parallel (Failure.Alike (Respelled ρ.serial (· < n)))
        (Label.Respelled (Respelled ρ.serial (· < n))) (part u) (part' (u.map ρ.onType))) :
    Parallel (Failure.Alike (Respelled ρ.serial (· < n)))
      (Label.Respelled (Respelled ρ.serial (· < n)))
      (labelOfParts part parts) (labelOfParts part' (ρ.onParts parts)) := by
  have hargs : List.Forall₂ (fun u u' => u' = u.map ρ.onType) parts.args
      (ρ.onParts parts).args := by
    rw [Renaming.onParts, List.forall₂_map_right_iff]
    exact List.forall₂_same.2 fun _ _ => rfl
  have hlabels := Parallel.mapM hargs fun u hu u' hu' => hu' ▸ hpart u fun v hv =>
    List.mem_append_right _ (List.mem_filterMap.2 ⟨u, hu, hv⟩)
  refine hlabels.bind fun labels labels' hlabels => ?_
  rcases rel_cases (alike_texts .same hlabels) with ⟨hn, hn'⟩ | ⟨texts, texts', ht, ht', htexts⟩
  · rw [hn, hn']
    exact .error (.same _)
  rw [ht, ht']
  have hbase := hpart parts.base fun v hv => List.mem_append_left _ (Option.mem_toList.2 hv)
  refine hbase.bind fun base base' hbase => .ok (.text ?_)
  have hlist := intercalate_alike .same .append ", " htexts
  exact .append (.append (.append (hbase.spelling .same) (.same _)) hlist) (.same _)

/-- Types are called the same, up to serials. -/
theorem alike_labelWithin (hstart : start.Grounded) {fuel fuel' : Nat} (ht : t.index < s.cells.size)
    (hfuel : t.index < fuel) (hfuel' : ρ.type t.index < fuel') :
    Parallel (Failure.Alike (Respelled ρ.serial (· < s.nextSerial)))
      (Label.Respelled (Respelled ρ.serial (· < s.nextSerial)))
      (s.labelWithin fuel t) (s'.labelWithin fuel' (ρ.onType t)) := by
  induction fuel generalizing fuel' t with
  | zero => omega
  | succ fuel ih =>
    obtain _ | fuel' := fuel'
    · omega
    rw [labelWithin, labelWithin, h.name?_eq ht, h.parts?_eq ht]
    cases s.name? t with
    | none => exact .error (.same _)
    | some name =>
    cases name with
    | some name => exact .ok (.same _)
    | none =>
    cases hparts : s.parts? t with
    | none => exact .error (.same _)
    | some parts =>
    simp only [needed_some_bind, Option.map_some]
    cases parts with
    | none =>
      refine .bind (alike_needed (h.rel_token? ht)) fun k k' hk => ?_
      obtain ⟨hk, rfl⟩ := hk
      exact .bind (alike_needed (h.alike_serial hstart hk)) fun l l' hl => .ok (.text hl)
    | some parts =>
      change Parallel _ _ (labelOfParts (partLabel (s.labelWithin fuel)) parts)
        (labelOfParts (partLabel (s'.labelWithin fuel')) (ρ.onParts parts))
      refine alike_labelOfParts fun u hu => ?_
      cases u with
      | none => exact .ok (.same _)
      | some u =>
        have holder := h.older hparts (hu u rfl)
        have := ρ.type_strictMono holder
        exact ih (by omega) (by omega) (by omega)

end Renamed

end Store

/-! ### What registries keep -/

/-- Stores are the same up to a renaming. The stage is the extent of the first store. -/
def Likeness.renamed (ρ : Renaming) (start : Store) (S : Scope) (mine : TypeId → Prop) :
    Likeness (Nat × Nat) where
  store i s s' := i = s.extent ∧ Store.Renamed ρ start S mine s s'
  own i t t' := mine t ∧ t.index < i.1 ∧ t' = ρ.onType t
  type i t t' := t.index < i.1 ∧ t' = ρ.onType t
  token i k k' := k.serial < i.2 ∧ k' = ρ.onToken k
  text i := Respelled ρ.serial (· < i.2)

section Kept

variable {ρ : Renaming} {start : Store} {S : Scope} {mine : TypeId → Prop} {i : Nat × Nat}

theorem PartsAlike.eq_onSlot {n : Nat} {parts parts' : Slot TypeParts}
    (h : PartsAlike (fun t t' => t.index < n ∧ t' = ρ.onType t) parts parts') :
    parts' = ρ.onSlot parts ∧ ∀ p, parts = .holds p → ∀ u ∈ p.types, u.index < n := by
  cases h with
  | empty => exact ⟨rfl, nofun⟩
  | @holds base base' args args' hbase hargs =>
    obtain ⟨hlt, rfl⟩ := hbase
    obtain ⟨hlts, hargs⟩ := (List.forall₂_and_left _ _).1 hargs
    have heq : args' = args.map ρ.onType := by
      have hmap : List.Forall₂ Eq (args.map ρ.onType) args' :=
        List.forall₂_map_left_iff.2 (hargs.imp fun _ _ h => h.symm)
      rw [List.forall₂_eq_eq_eq] at hmap
      exact hmap.symm
    subst heq
    refine ⟨?_, ?_⟩
    · simp [Renaming.onSlot, Renaming.onParts, Function.comp_def]
    · rintro p ⟨⟩ u hu
      rcases List.mem_append.1 hu with hu | hu
      · cases Option.mem_toList.1 hu
        exact hlt
      · simp only [List.mem_filterMap, List.mem_map, id_eq] at hu
        obtain ⟨_, ⟨a, ha, rfl⟩, hau⟩ := hu
        cases hau
        exact hlts _ ha

/-- What registries do keeps stores the same up to a renaming. -/
theorem kept_renamed (hstart : start.Grounded)
    (hknown : ∀ t, S.known t → t.index < start.cells.size) :
    (Likeness.renamed ρ start S mine).Kept S where
  own_mono := fun hij ht => ⟨ht.1, lt_of_lt_of_le ht.2.1 hij.1, ht.2.2⟩
  type_mono := fun hij ht => ⟨lt_of_lt_of_le ht.1 hij.1, ht.2⟩
  token_mono := fun hij hk => ⟨lt_of_lt_of_le hk.1 hij.2, hk.2⟩
  text_mono := fun hij h => h.mono fun _ hn => ⟨lt_of_lt_of_le hn hij.2, rfl⟩
  type_of_own := fun ht => ht.2
  type_biUnique := fun i => by
    refine ⟨fun t u t' ht hu => ρ.onType_injective (ht.2.symm.trans hu.2), fun t t' u' ht hu => ?_⟩
    exact ht.2.trans hu.2.symm
  token_biUnique := fun i => by
    refine ⟨fun k l k' hk hl => ρ.onToken_injective (hk.2.symm.trans hl.2), fun k k' l' hk hl => ?_⟩
    exact hk.2.trans hl.2.symm
  minted := by
    rintro i k _ ⟨-, rfl⟩
    rfl
  text_refl := fun _ => .same
  text_append := .append
  known := by
    rintro i s s' t ⟨rfl, hs⟩ ht
    have hlt := hknown t ht
    exact ⟨lt_of_lt_of_le hlt hs.fits.size, congrArg TypeId.mk (hs.fits.types_fixed _ hlt).symm⟩
  relabelled := fun hs => hs.2.relabelled_eq.symm
  token? := by
    rintro i s s' t _ ⟨rfl, hs⟩ ⟨ht, rfl⟩
    exact hs.rel_token? ht
  name? := by
    rintro i s s' t _ ⟨rfl, hs⟩ ⟨ht, rfl⟩
    exact (hs.name?_eq ht).symm
  base? := by
    rintro i s s' t _ ⟨rfl, hs⟩ ⟨ht, rfl⟩
    exact hs.rel_base? ht
  typeText := by
    rintro i s s' t _ ⟨rfl, hs⟩ ⟨ht, rfl⟩
    have hlabel := hs.alike_labelWithin hstart ht (Nat.lt_succ_self _) (Nat.lt_succ_self _)
    exact hlabel.bind fun l l' hl => .ok (hl.spelling .same)
  constructor? := by
    rintro i s s' t _ ⟨rfl, hs⟩ ⟨hmine, ht, rfl⟩
    obtain ⟨c, c', hc, hc', -, hconstructor⟩ := hs.exists_cell ht
    refine ⟨?_, fun v hv => hs.covered t v hmine hv⟩
    rw [Store.constructor?, Store.constructor?, hc, hc']
    simp [hconstructor hmine]
  created := by
    rintro i s s' parts parts' ⟨rfl, hs⟩ hparts
    obtain ⟨rfl, holder⟩ := hparts.eq_onSlot
    have hnew : (s'.createWith (ρ.onSlot parts)).1 = ρ.onType (s.createWith parts).1 :=
      congrArg TypeId.mk (hs.fits.types_next 0).symm
    have hlt : (s.createWith parts).1.index < (s.createWith parts).2.extent.1 := by
      rw [Store.extent_createWith]
      exact Nat.lt_succ_self _
    refine ⟨_, s.extent_le_createWith parts, ⟨hs.new _ (Nat.le_refl _), hlt, hnew⟩,
      ⟨rfl, hs.createWith holder⟩, fun name => ⟨(Store.extent_modify _ _ _).symm, ?_⟩⟩
    · rw [hnew]
      refine (hs.createWith holder).modify (fun _ => ⟨rfl, rfl⟩) (fun c c' _ hc => ?_)
        (fun _ _ => id) fun _ _ => .inl
      exact ⟨hc.token, rfl, hc.parts, hc.undescribable⟩
  described := by
    rintro i s s' t _ module path ⟨rfl, hs⟩ ⟨hmine, ht, rfl⟩
    obtain ⟨c, c', hc, hc', hrenamed, -⟩ := hs.exists_cell ht
    rw [Store.describe, Store.describe, hc, hc']
    simp only [Option.bind_eq_bind, Option.bind_some, hrenamed.undescribable]
    cases c.undescribable with
    | some e => exact .error (.same e)
    | none =>
      refine .ok ⟨(Store.extent_modify _ _ _).symm, hs.modify (fun _ => ⟨rfl, rfl⟩)
        (fun c c' _ hc => ⟨hc.token, hc.name, hc.parts, hc.undescribable⟩) (fun _ _ => id)
        fun _ _ => .inl⟩
  bound := by
    rintro i s s' t _ cls ⟨rfl, hs⟩ ⟨hmine, ht, rfl⟩ hcls
    refine ⟨(Store.extent_modify _ _ _).symm, hs.modify (fun _ => ⟨rfl, rfl⟩)
      (fun c c' _ hc => ⟨hc.token, hc.name, hc.parts, hc.undescribable⟩) (fun _ _ _ => rfl)
      fun c v hv => .inr (Slot.eq_of_ofValue_eq hv ▸ hcls)⟩

end Kept

end Nominal
