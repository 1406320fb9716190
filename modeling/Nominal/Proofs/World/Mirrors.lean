import Nominal.Proofs.Alike.Renaming
import Nominal.Proofs.Rows
import Nominal.Proofs.World.Separation

/-!
# A registry in two runs

The run with all calls is put beside the run with the calls of one registry: the types of this
registry are the same in both up to a renaming that keeps their order. A step of this registry is
taken in both runs and keeps the renaming; a step of another one is taken in one run only, and what
this registry creates next is renamed to later places and serials from then on.

## Main results

* `Mirrors.step`: a step of the registry.
* `Mirrors.other`: a step of another one.
-/

namespace Nominal

open Store

/-! ### Changing the renaming -/

namespace Renaming

variable {ρ ρ' : Renaming} {made : Nat × Nat}

theorem AgreeBelow.onType (h : ρ.AgreeBelow ρ' made) {t : TypeId} (ht : t.index < made.1) :
    ρ'.onType t = ρ.onType t :=
  congrArg TypeId.mk (h.1 _ ht)

theorem AgreeBelow.onToken (h : ρ.AgreeBelow ρ' made) {k : Token} (hk : k.serial < made.2) :
    ρ'.onToken k = ρ.onToken k :=
  congrArg (Token.mk · k.minted) (h.2 _ hk)

theorem AgreeBelow.onSlot (h : ρ.AgreeBelow ρ' made) {parts : Slot TypeParts}
    (hparts : ∀ p, parts = .holds p → ∀ u ∈ p.types, u.index < made.1) :
    ρ'.onSlot parts = ρ.onSlot parts := by
  cases parts with
  | absent => rfl
  | empty => rfl
  | holds p =>
    have hlt := hparts p rfl
    have hbase : p.base.map ρ'.onType = p.base.map ρ.onType := Option.map_congr fun u hu =>
      h.onType (hlt u (List.mem_append_left _ (Option.mem_toList.2 hu)))
    have hargs : p.args.map (Option.map ρ'.onType) = p.args.map (Option.map ρ.onType) :=
      List.map_congr_left fun o ho => Option.map_congr fun u hu =>
        h.onType (hlt u (List.mem_append_right _ (List.mem_filterMap.2 ⟨o, ho, hu⟩)))
    rw [Renaming.onSlot, Renaming.onSlot, Renaming.onParts, Renaming.onParts, hbase, hargs]

theorem AgreeBelow.trans {ρ'' : Renaming} {later : Nat × Nat} (h : ρ.AgreeBelow ρ' made)
    (h' : ρ'.AgreeBelow ρ'' later) (hle : made ≤ later) : ρ.AgreeBelow ρ'' made :=
  ⟨fun n hn => (h'.1 n (lt_of_lt_of_le hn hle.1)).trans (h.1 n hn),
    fun n hn => (h'.2 n (lt_of_lt_of_le hn hle.2)).trans (h.2 n hn)⟩

end Renaming

section Changes

variable {ρ ρ' : Renaming} {start s s' s'' : Store} {S : Scope} {mine mine' other : TypeId → Prop}

theorem TypeCell.Renamed.of_agreeBelow {c c' : TypeCell} (h : c.Renamed ρ c') {index : Nat}
    (hc : c.Grounded index s.nextSerial) (hindex : index < s.cells.size)
    (hagree : ρ.AgreeBelow ρ' s.extent) : c.Renamed ρ' c' where
  token := by
    rw [h.token]
    exact Option.map_congr fun k hk => (hagree.onToken (hc.token k hk)).symm
  name := h.name
  parts := by
    rw [h.parts]
    exact (hagree.onSlot fun p hp u hu => lt_trans (hc.parts p hp u hu) hindex).symm
  undescribable := h.undescribable

/-- Other types can be looked at, as long as they were looked at before or are new. -/
theorem Store.Renamed.of_mine (h : Store.Renamed ρ start S mine s s')
    (hmine : ∀ t, t.index < s.cells.size → mine' t → mine t)
    (hnew : ∀ t : TypeId, s.cells.size ≤ t.index → mine' t) :
    Store.Renamed ρ start S mine' s s' where
  fits := h.fits
  grounded := h.grounded
  relabelled := h.relabelled
  relabelled_eq := h.relabelled_eq
  cell := fun hc => by
    obtain ⟨c', hc', hrenamed, hconstructor⟩ := h.cell hc
    exact ⟨c', hc', hrenamed, fun ht => hconstructor (hmine _ (lt_size_of_cell? hc) ht)⟩
  covered := fun t v ht hv => by
    obtain ⟨c, hc, -⟩ := Option.bind_eq_some_iff.1 hv
    exact h.covered t v (hmine t (lt_size_of_cell? hc) ht) hv
  new := hnew

/-- The second store grows by what another registry does; what comes next is renamed to later
places. -/
theorem Store.Renamed.spared (h : Store.Renamed ρ start S mine s s')
    (hs : ChangesOnly other s' s'')
    (hother : ∀ t, mine t → t.index < s.cells.size → ¬other (ρ.onType t)) :
    Store.Renamed (ρ.raise s.extent (s''.extent - s'.extent)) start S mine s s'' where
  fits := by
    obtain ⟨htypes, hserials, hsize, hserial, htypesNext, hserialsNext⟩ := h.fits
    have hsize' := hs.size
    have hserial' := hs.serial
    refine ⟨fun n hn => ?_, fun n hn => ?_, hsize, hserial, fun n => ?_, fun n => ?_⟩
    · exact (if_pos (lt_of_lt_of_le hn hsize)).trans (htypes n hn)
    · exact (if_pos (lt_of_lt_of_le hn hserial)).trans (hserials n hn)
    · refine (if_neg (Nat.not_lt.2 (Nat.le_add_right _ _))).trans ?_
      rw [htypesNext]
      simp only [extent, Prod.fst_sub]
      omega
    · refine (if_neg (Nat.not_lt.2 (Nat.le_add_right _ _))).trans ?_
      rw [hserialsNext]
      simp only [extent, Prod.snd_sub]
      omega
  grounded := h.grounded
  relabelled := h.relabelled
  relabelled_eq := hs.relabelled.trans h.relabelled_eq
  cell := fun {t c} hc => by
    have ht := lt_size_of_cell? hc
    have hagree := ρ.agreeBelow_raise s.extent (s''.extent - s'.extent)
    obtain ⟨c', hc', hrenamed, hconstructor⟩ := h.cell hc
    obtain ⟨c'', hc'', hidentity, hkept⟩ := hs.cell hc'
    rw [hagree.onType ht]
    have hrenamed := hrenamed.of_agreeBelow (h.grounded.cell hc) ht hagree
    simp only [TypeCell.identity, Prod.mk.injEq] at hidentity
    obtain ⟨htoken, hname, hparts, hundescribable⟩ := hidentity
    refine ⟨c'', hc'', ⟨htoken.trans hrenamed.token, hname.trans hrenamed.name,
      hparts.trans hrenamed.parts, hundescribable.trans hrenamed.undescribable⟩, fun hmine => ?_⟩
    exact (hkept (hother t hmine ht)).trans (hconstructor hmine)
  covered := h.covered
  new := h.new

/-- A registry is the same up to another renaming, if this agrees on what there is. -/
theorem Registry.Alike.of_agreeBelow {i : Nat × Nat} {reg reg' : Registry}
    (h : Registry.Alike (Likeness.renamed ρ start S mine) i reg reg') (hagree : ρ.AgreeBelow ρ' i)
    (hmine : ∀ t ∈ reg.types, mine' t) :
    Registry.Alike (Likeness.renamed ρ' start S mine') i reg reg' := by
  have hown : ∀ t ∈ reg.types, ∀ t', (Likeness.renamed ρ start S mine).own i t t' →
      (Likeness.renamed ρ' start S mine').own i t t' := fun t ht t' hown =>
    ⟨hmine t ht, hown.2.1, hown.2.2.trans (hagree.onType hown.2.1).symm⟩
  refine ⟨h.strict, h.names.mono fun t ht => hown t (List.mem_append_left _ ht), ?_,
    h.cache.mono fun t _ t' ht => ⟨ht.1, ht.2.trans (hagree.onType ht.1).symm⟩⟩
  refine ⟨h.interner.root.mono (fun t ht => ?_) ?_, h.interner.count⟩
  · exact hown t (List.mem_append_right _ ht)
  · exact fun k _ k' hk => ⟨hk.1, hk.2.trans (hagree.onToken hk.1).symm⟩

end Changes

namespace World

variable {ρ : Renaming} {w₀ w w' w'' : World} {q r known : Nat} {α : Type}

/-! ### A registry in two runs -/

/-- The store of a world is compared with another one up to a renaming, with a look at the types of
a registry. -/
abbrev renamed (ρ : Renaming) (w₀ : World) (r : Nat) (mine : TypeId → Prop) :
    Likeness (Nat × Nat) :=
  .renamed ρ w₀.store (.home w₀.heap w₀.store.cells.size r) mine

theorem kept_renamed_home (hstart : w₀.store.Grounded) (mine : TypeId → Prop) :
    (renamed ρ w₀ r mine).Kept (.home w₀.heap w₀.store.cells.size r) :=
  kept_renamed hstart fun _ => id

/-- A registry is the same in two worlds up to a renaming, since these were one world. -/
structure Mirrors (ρ : Renaming) (w₀ : World) (r : Nat) (w w' : World) : Prop where
  /-- The heap of the first world is the given one. -/
  left : w.heap = w₀.heap
  /-- The heap of the second world is the given one. -/
  right : w'.heap = w₀.heap
  /-- The types are the same. -/
  store : Store.Renamed ρ w₀.store (.home w₀.heap w₀.store.cells.size r) (w.Own r) w.store w'.store
  /-- The registry is the same. -/
  registry : Option.Rel (Registry.Alike (renamed ρ w₀ r (w.Own r)) w.store.extent)
    w.registries[r]? w'.registries[r]?

namespace Mirrors

variable (h : Mirrors ρ w₀ r w w')
include h

/-- The worlds are alike before the registry is called. -/
theorem alike : Alike (renamed ρ w₀ r (w.Own r)) (.home w₀.heap w₀.store.cells.size r) w w'
    w.store.extent w w' where
  left := ⟨h.left, fun _ => rfl, fun _ _ => rfl⟩
  right := ⟨h.right, fun _ => rfl, fun _ _ => rfl⟩
  store := ⟨rfl, h.store⟩
  reached := fun q hq => by
    obtain rfl : q = r := hq
    exact h.registry
  events := ⟨[], [], by simp, by simp, .nil⟩

omit h in
/-- Worlds that are alike after a call of the registry mirror it again. -/
theorem of_alike {i : Nat × Nat} {w₁ w₁' : World}
    (h : Alike (renamed ρ w₀ r (w.Own r)) (.home w₀.heap w₀.store.cells.size r) w w' i w₁ w₁') :
    i = w₁.store.extent ∧ Mirrors ρ w₀ r w₁ w₁' := by
  obtain ⟨rfl, hstore⟩ := h.store
  have htypes : ∀ {reg t}, w₁.registries[r]? = some reg → t ∈ reg.types → w.Own r t := by
    intro reg t hreg ht
    obtain ⟨_, -, halike⟩ := exists_of_rel (h.reached r rfl) hreg
    obtain ⟨_, -, hown, -⟩ := exists_mem_right halike.types ht
    exact hown
  refine ⟨rfl, h.left.heap, h.right.heap, hstore.of_mine ?_ fun t => .inr, ?_⟩
  · rintro t ht (⟨reg, hreg, hmem⟩ | hnew)
    · exact htypes hreg hmem
    · omega
  · refine rel_mono (h.reached r rfl) fun reg reg' hreg halike => ?_
    exact halike.of_agreeBelow ⟨fun _ _ => rfl, fun _ _ => rfl⟩ fun t ht => .inl ⟨reg, hreg, ht⟩

/-- A step of the registry is taken in both worlds. -/
theorem step {act : Action α} {Q : Nat × Nat → α → α → Prop}
    (hact : InStep (renamed ρ w₀ r (w.Own r)) (.home w₀.heap w₀.store.cells.size r) w w'
      w.store.extent Q act act) :
    Couples (fun i w w' => i = w.store.extent ∧ Mirrors ρ w₀ r w w')
      (renamed ρ w₀ r (w.Own r)).failure Q w.store.extent act act w w' :=
  (hact w w' h.alike).mono (fun _ _ _ => id) (fun _ _ _ => id) fun _ _ _ => of_alike

/-- A step of another registry is taken in the second world only. -/
theorem other (hsep : w'.Separate known) (hw : Spared known q w' w'') (hq : q ≠ r) :
    Mirrors (ρ.raise w.store.extent (w''.store.extent - w'.store.extent)) w₀ r w w'' where
  left := h.left
  right := hw.heap.trans h.right
  store := by
    refine h.store.spared hw.store fun t ht hlt => ?_
    -- The registry's types are in its tables in both worlds, hence in no other registry's.
    rcases ht with ⟨reg, hreg, ht⟩ | hnew
    · obtain ⟨reg', hreg', halike⟩ := exists_of_rel h.registry hreg
      obtain ⟨_, ht', -, -, rfl⟩ := exists_mem_right halike.types ht
      rintro (⟨old, hold, hmem⟩ | hnew)
      · exact hsep.disjoint hq.symm hreg' hold ht' hmem
      · exact absurd (hsep.live hreg' ht') (Nat.not_lt.2 hnew)
    · omega
  registry := by
    rw [hw.others r hq.symm]
    refine rel_mono h.registry fun reg reg' hreg halike => ?_
    exact halike.of_agreeBelow (ρ.agreeBelow_raise _ _) fun t ht => .inl ⟨reg, hreg, ht⟩

end Mirrors

end World

end Nominal
