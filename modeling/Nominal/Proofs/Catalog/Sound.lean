import Nominal.Proofs.Catalog.Regular
import Nominal.Proofs.Interner.Histories

/-!
# Sound catalogs

A catalog is sound when all its types were made by creation and the tree holds each of its types
under the row of its parts. Any step keeps a catalog sound and adds to what it shows, also where the
step fails: names may be taken and given in any order, and types may be interned that are not there.

## Main results

* `parts?_of_find?`: a type in the tree has the parts of its row.
* `run_intern_of_sound` and `ends_intern_of_no_row`: the two ways in which interning ends.
* `Call.advances`: what calls on the catalog keep.
* `sound_of_store`: a catalog stays sound where another one over the same store enlarges the store.
* `sound_fresh`: the catalog of the first registry is sound.
-/

namespace Nominal

open Catalog (Keyed)

/-- All types were made by creation, and the tree holds types under the rows of their parts. -/
structure View.Sound (v : View) : Prop where
  /-- All types have tokens of their own and can be described. -/
  regular : v.Regular 0
  /-- The tree is in step with a log of what was interned. -/
  keyed : ∃ log, Keyed v log

/-- A later view that is sound and still shows what an earlier one showed. -/
structure View.Advances (v v' : View) : Prop where
  /-- It is sound. -/
  sound : v'.Sound
  /-- What was shown is shown still. -/
  extends_view : v.Extends v'

/-- A later view that is sound and shows the types that were shown, whatever they are called. -/
structure View.Enlarges (v v' : View) : Prop where
  /-- It is sound. -/
  sound : v'.Sound
  /-- No type object is lost. -/
  size : v.size ≤ v'.size
  /-- Tokens stay. -/
  token? : ∀ {t k}, v.token? t = some k → v'.token? t = some k
  /-- Parts stay. -/
  parts? : ∀ {t p}, v.parts? t = some p → v'.parts? t = some p

namespace View

variable {v v' v'' : View}

theorem Sound.minted (h : v.Sound) : v.Minted :=
  h.keyed.elim fun _ => Keyed.minted

theorem Sound.advances (h : v.Sound) : v.Advances v :=
  ⟨h, .refl v⟩

theorem Advances.trans (h : v.Advances v') (h' : v'.Advances v'') : v.Advances v'' :=
  ⟨h'.sound, h.extends_view.trans h'.extends_view⟩

theorem Advances.enlarges (h : v.Advances v') : v.Enlarges v' :=
  ⟨h.sound, h.extends_view.size, h.extends_view.token?, h.extends_view.parts?⟩

theorem Enlarges.trans (h : v.Enlarges v') (h' : v'.Enlarges v'') : v.Enlarges v'' :=
  ⟨h'.sound, Nat.le_trans h.size h'.size, fun ht => h'.token? (h.token? ht),
    fun ht => h'.parts? (h.parts? ht)⟩

theorem Advances.lt_size (h : v.Advances v') {t : TypeId} (ht : t.index < v.size) :
    t.index < v'.size :=
  Nat.lt_of_lt_of_le ht h.extends_view.size

/-- A type keeps its parts, or its lack of them. -/
theorem Advances.parts?_eq (h : v.Advances v') (hv : v.Sound) {t : TypeId} (ht : t.index < v.size) :
    v'.parts? t = v.parts? t := by
  rcases hv.minted.parts ht with hparts | ⟨_, _, hparts, -⟩ <;>
    rw [hparts, h.extends_view.parts? hparts]

/-- The parts of a type are there. -/
theorem Sound.lt_size_of_mem_parts (h : v.Sound) {t base : TypeId} {args : List TypeId}
    (ht : t.index < v.size) (hparts : v.parts? t = some (some ⟨some base, args.map some⟩)) :
    ∀ u ∈ base :: args, u.index < v.size := by
  rcases h.minted.parts ht with hnone | ⟨base', args', hparts', hold⟩
  · rw [hnone] at hparts
    cases hparts
  · rw [hparts'] at hparts
    obtain ⟨rfl, rfl⟩ : base' = base ∧ args' = args := by
      simpa [List.map_inj_right] using hparts
    exact fun u hu => Nat.lt_trans (hold u hu) ht

/-- Types with the same row are the same. -/
theorem Sound.row_inj (h : v.Sound) {ts us : List TypeId} {row : List Token}
    (hts : ∀ t ∈ ts, t.index < v.size) (hus : ∀ u ∈ us, u.index < v.size) (hrow : v.Row ts row)
    (hrow' : v.Row us row) : ts = us := by
  have hmap : ts.map v.token? = us.map v.token? := hrow.trans hrow'.symm
  clear hrow hrow'
  induction ts generalizing us with
  | nil => exact (List.map_eq_nil_iff.1 hmap.symm).symm
  | cons t ts ih =>
    cases us with
    | nil => cases hmap
    | cons u us =>
      obtain ⟨htoken, hmap⟩ := List.cons.inj hmap
      obtain ⟨ht, hts⟩ := List.forall_mem_cons.1 hts
      obtain ⟨hu, hus⟩ := List.forall_mem_cons.1 hus
      obtain ⟨k, hk, -⟩ := h.minted.token ht
      rw [h.regular.token_inj ⟨Nat.zero_le _, ht⟩ ⟨Nat.zero_le _, hu⟩ hk (htoken ▸ hk),
        ih hts hus hmap]

end View

namespace Catalog

variable {α : Type} {c c' : Catalog} {base t : TypeId} {args : List TypeId} {row : List Token}

/-! ### Rows -/

/-- Types with tokens are there. -/
theorem lt_size_of_row {ts : List TypeId} (h : c.view.Row ts row) {t : TypeId} (ht : t ∈ ts) :
    t.index < c.view.size := by
  by_contra hle
  have hmem : c.view.token? t ∈ row.map some := h ▸ List.mem_map_of_mem ht
  obtain ⟨k, -, hk⟩ := List.mem_map.1 hmem
  rw [(view_eq_none (Nat.not_lt.1 hle)).1] at hk
  cases hk

/-- A type in the tree has the parts of its row. -/
theorem parts?_of_find? (h : c.view.Sound) (hrow : c.view.Row (base :: args) row)
    (hfind : c.view.find? row = some t) :
    c.view.parts? t = some (some ⟨some base, args.map some⟩) := by
  obtain ⟨log, hkeyed⟩ := h.keyed
  obtain ⟨base', args', hparts, hrow'⟩ := hkeyed.parts ((hkeyed.found row t).1 hfind)
  obtain ⟨rfl, rfl⟩ := List.cons.inj <| h.row_inj (fun _ => lt_size_of_row hrow')
    (fun _ => lt_size_of_row hrow) hrow' hrow
  exact hparts

theorem lt_size_of_parts? {p : Option TypeParts} (h : c.view.parts? t = some p) :
    t.index < c.view.size := by
  by_contra hle
  rw [(view_eq_none (Nat.not_lt.1 hle)).2.2] at h
  cases h

/-- What is in the tree has a text. -/
theorem exists_text_of_sound (h : c.view.Sound) (hfind : c.view.find? row = some t) :
    ∃ s, c.store.text t = .ok s := by
  obtain ⟨log, hkeyed⟩ := h.keyed
  obtain ⟨base, args, hparts, -⟩ := hkeyed.parts ((hkeyed.found row t).1 hfind)
  exact exists_text h.minted (lt_size_of_parts? hparts)

/-! ### Interning -/

/-- Where there are no arguments, or where a type has no token, interning fails and shows nothing.
-/
theorem ends_intern_of_no_row (h : args = [] ∨ ∀ row, ¬ c.view.Row (base :: args) row) :
    Ends (intern base args) c (fun _ _ => False) (Alike c) := by
  rw [intern]
  by_cases hargs : args = []
  · rw [if_pos hargs]
    exact (frames_text base c).ends.bind fun s c' hs =>
      Ends.throw (e := Failure.refused (.noArguments s)) hs.2
  rw [if_neg hargs]
  have hroute : Frames Alike (routeAlong (base :: args).dropLast) c :=
    (unnoticed_routeAlong _ c).mono fun _ h => h.1
  refine hroute.ends.bind fun path c₁ hpath => ?_
  obtain ⟨hpath, hc₁⟩ := hpath
  refine ((frames_read (Q := Alike) _ c₁).ends.mono (fun _ _ => id)
    fun c₂ hc₂ => hc₂.trans hc₁).bind fun last c₂ hlast => ?_
  have htoken : c₁.view.token? (args.getLastD base) = some last := (run_read_eq_ok hlast.1).2
  rw [hc₁] at htoken
  exact absurd ((row_of_run_routeAlong hpath).of_append htoken) (h.resolve_left hargs _)

/-- What a row of types is interned as: the type in the tree, which is there already, or a new one.
-/
structure Interned (v : View) (base : TypeId) (args : List TypeId) (t : TypeId) (v' : View) :
    Prop where
  /-- The view is sound and still shows what was shown. -/
  advances : v.Advances v'
  /-- The type has the given parts. -/
  parts? : v'.parts? t = some (some ⟨some base, args.map some⟩)
  /-- The type is in the tree. -/
  found : ∃ row, v'.Row (base :: args) row ∧ v'.find? row = some t
  /-- A type that was there before is interned without a change. -/
  of_old : t.index < v.size → v' = v

/-- How types that are there are interned. -/
theorem run_intern_of_sound (h : c.view.Sound) (hargs : args ≠ [])
    (hlive : ∀ u ∈ base :: args, u.index < c.view.size) :
    ∃ t c', (intern base args).run c = .ok t c' ∧ Interned c.view base args t c'.view := by
  obtain ⟨row, hrow⟩ := h.minted.exists_row hlive
  cases hfind : c.view.find? row with
  | some t =>
    obtain ⟨c', hrun, hview⟩ := run_intern_of_find? hargs hrow (exists_text_of_sound h) hfind
    refine ⟨t, c', hrun, ?_⟩
    rw [hview]
    exact ⟨h.advances, parts?_of_find? h hrow hfind, ⟨row, hrow, hfind⟩, fun _ => rfl⟩
  | none =>
    obtain ⟨log, hkeyed⟩ := h.keyed
    obtain ⟨c', v, hrun, hview, hadm⟩ := run_intern_of_find?_eq_none hargs hrow
      (exists_text_of_sound h) hfind (R := Admits c.view base args) fun c₁ hc₁ =>
        hc₁ ▸ run_createInterned (hc₁ ▸ h.minted) (hc₁ ▸ hlive)
    have hregular : KeepsRegular 0 c c' :=
      (frames_intern (elementary_keepsRegular 0).toInterning base args c).of_run hrun
    have hext : c.view.Extends c'.view := by
      rw [hview]
      exact hadm.extends_view.trans (View.extends_place ((congrFun hadm.find? row).trans hfind))
    have hplaced : Keyed c'.view ((row, c.view.next) :: log) :=
      hview ▸ hkeyed.place hfind hrow hadm
    refine ⟨c.view.next, c', hrun, ⟨⟨hregular h.regular, _, hplaced⟩, hext⟩, ?_,
      ⟨row, hrow.mono hext, (hplaced.found _ _).2 List.mem_cons_self⟩,
      fun hlt => absurd hlt (Nat.lt_irrefl _)⟩
    rw [hview]
    exact hadm.parts?

/-- How types are interned, whether or not they are there. -/
theorem ends_intern (h : c.view.Sound) (base : TypeId) (args : List TypeId) :
    Ends (intern base args) c (fun t c' => args ≠ [] ∧ Interned c.view base args t c'.view)
      (Alike c) := by
  by_cases hnone : args = [] ∨ ∀ row, ¬ c.view.Row (base :: args) row
  · exact (ends_intern_of_no_row hnone).mono (fun _ _ => False.elim) fun _ => id
  · simp only [not_or, not_forall, not_not] at hnone
    obtain ⟨hargs, row, hrow⟩ := hnone
    obtain ⟨t, c', hrun, ht⟩ := run_intern_of_sound h hargs fun _ => lt_size_of_row hrow
    exact Ends.of_run hrun ⟨hargs, ht⟩

/-! ### Calls -/

/-- Calls on a catalog keep types regular. -/
theorem Call.keepsRegular {new : List (List Token × TypeId)} (hcall : Call c c' new) :
    KeepsRegular 0 c c' := by
  have helementary := elementary_keepsRegular 0
  cases hcall with
  | create => exact helementary.create c _
  | createComplex => exact helementary.create c _
  | assignName hs =>
    obtain rfl | ⟨hname, rfl⟩ := assignName_ok hs
    · exact id
    · exact helementary.setName hname _
  | named n => exact frames_final (frames_named helementary.toNaming n c)
  | bindName n => exact frames_final (frames_bindName fun _ => keepsRegular_names c _)
  | intern _ _ _ hrun => exact (frames_intern helementary.toInterning _ _ c).of_run hrun

/-- Calls on a catalog add to what it shows. -/
theorem Call.extends_view {new : List (List Token × TypeId)} (h : c.view.Sound)
    (hcall : Call c c' new) : c.view.Extends c'.view := by
  cases hcall with
  | create => exact (view_create c none).symm ▸ extends_create c none
  | @createComplex base args =>
    exact (view_create c (some ⟨some base, args.map some⟩)).symm ▸ extends_create c _
  | assignName hs =>
    obtain rfl | ⟨hname, rfl⟩ := assignName_ok hs
    · exact .refl _
    · rw [view_setName (lt_size_of_name? hname)]
      exact View.extends_setName hname
  | named n =>
    cases hfound : c.view.lookup? n with
    | some t =>
      rw [final_of_run (run_named_of_some hfound)]
      exact .refl _
    | none =>
      obtain ⟨c', hrun, hview⟩ := run_named_of_none hfound
      rw [final_of_run hrun, hview]
      exact extends_enter hfound none
  | bindName n ht =>
    cases hfound : c.view.lookup? n with
    | some u =>
      rw [final_bindName_of_some hfound]
      exact .refl _
    | none =>
      rw [final_of_run (run_bindName_of_none hfound _), view_bind hfound]
      exact View.extends_bind hfound
  | intern hlive hargs _ hrun =>
    obtain ⟨t, c', hrun', ht⟩ := run_intern_of_sound h hargs hlive
    rw [hrun] at hrun'
    cases hrun'
    exact ht.advances.extends_view

/-- Calls on a catalog keep it sound and add to what it shows. -/
theorem Call.advances {new : List (List Token × TypeId)} (h : c.view.Sound)
    (hcall : Call c c' new) : c.view.Advances c'.view := by
  obtain ⟨log, hkeyed⟩ := h.keyed
  exact ⟨⟨hcall.keepsRegular h.regular, _, hcall.keyed hkeyed⟩, hcall.extends_view h⟩

/-! ### Names -/

/-- How a name is taken. A name whose type was there before is taken without a change. -/
theorem run_named_of_sound (h : c.view.Sound) (n : String) :
    ∃ t c', (named n).run c = .ok t c' ∧ c.view.Advances c'.view ∧ c'.view.lookup? n = some t ∧
      (t.index < c.view.size → c.view.lookup? n = some t ∧ c'.view = c.view) := by
  have hadvances := (Call.named c n).advances h
  cases hfound : c.view.lookup? n with
  | some t =>
    exact ⟨t, c, run_named_of_some hfound, h.advances, hfound, fun _ => ⟨rfl, rfl⟩⟩
  | none =>
    obtain ⟨c', hrun, hview⟩ := run_named_of_none hfound
    rw [final_of_run hrun] at hadvances
    refine ⟨_, c', hrun, hadvances, ?_, fun hlt => absurd hlt (Nat.lt_irrefl _)⟩
    rw [hview, View.enter_lookup?, if_pos rfl]

/-! ### Steps -/

/-- A step keeps sound catalogs sound and adds to what they show, with or without a result. -/
def Advancing (act : Action α) : Prop :=
  ∀ c : Catalog, c.view.Sound → c.view.Advances (final act c).view

/-- A step that changes nothing that shows. -/
theorem advancing_of_alike {act : Action α} (h : ∀ c, Frames Alike act c) : Advancing act := by
  intro c hc
  have hview : Alike c (final act c) := frames_final (h c)
  rw [hview]
  exact hc.advances

theorem advancing_named (n : String) : Advancing (named n) :=
  fun c h => (Call.named c n).advances h

theorem advancing_primitive (p : Primitive) : Advancing (primitive p) :=
  advancing_of_alike (frames_primitive p)

theorem advancing_reserveName (n : String) : Advancing (reserveName n) :=
  advancing_of_alike fun _ => frames_reserveName rfl

theorem advancing_intern (base : TypeId) (args : List TypeId) : Advancing (intern base args) :=
  fun c h => final_of_ends (P := fun c' => c.view.Advances c'.view) <|
    (ends_intern h base args).mono (fun _ _ ht => ht.2.advances) fun c' hview => by
      rw [hview]
      exact h.advances

/-- A catalog over a store that another one enlarged is sound. -/
theorem sound_of_store {d d' : Catalog} (hc : c.view.Sound) (hd : d.view.Enlarges d'.view)
    (hstore : d.store = c.store) : { c with store := d'.store }.view.Sound := by
  have hsize : d.view.size = c.view.size := congrArg (·.cells.size) hstore
  have htoken : d.view.token? = c.view.token? := congrArg Store.token? hstore
  have hparts : d.view.parts? = c.view.parts? := congrArg Store.parts? hstore
  have hregular := hd.sound.regular
  have hminted := hd.sound.minted
  obtain ⟨log, hkeyed⟩ := hc.keyed
  refine ⟨⟨hregular.token, hregular.token_inj, hregular.writable⟩, log,
    ⟨hminted.token, hminted.name, hminted.parts, hminted.relabelled, fun ht => ?_⟩,
    hkeyed.found, fun hmem => ?_, hkeyed.count⟩
  · exact Nat.lt_of_lt_of_le (hsize.symm ▸ hkeyed.minted.live ht) hd.size
  · obtain ⟨base, args, hold, hrow⟩ := hkeyed.parts hmem
    rw [View.Row, ← htoken] at hrow
    exact ⟨base, args, hd.parts? (hparts ▸ hold), View.Row.of_token? hrow hd.token?⟩

/-! ### Fresh catalogs -/

theorem minted_empty : (view {}).Minted := by
  refine ⟨fun ht => absurd ht (Nat.not_lt_zero _), fun ht => absurd ht (Nat.not_lt_zero _),
    fun ht => absurd ht (Nat.not_lt_zero _), rfl, fun {n t} ht => ?_⟩
  rw [lookup?_empty {} n] at ht
  cases ht

theorem sound_empty : (view {}).Sound :=
  ⟨regular_empty {}, [], (History.start minted_empty rfl).keyed⟩

/-- Primitive kinds get their types one after the other, and the catalog stays sound. -/
theorem enlarges_seedKinds (kinds : List Primitive) (h : c.view.Sound) :
    c.view.Enlarges (final (kinds.forM seedKind) c).view := by
  induction kinds generalizing c with
  | nil => exact h.advances.enlarges
  | cons p kinds ih =>
    obtain ⟨t, c₁, hrun, hc₁, ht, -⟩ := run_named_of_sound h p.display
    obtain ⟨c₂, hc₂⟩ : ∃ c₂ : Catalog, c₂ = { c₁ with names := c₁.names.bindPrimitive p t } :=
      ⟨_, rfl⟩
    have hlive : ∀ {n u}, c₂.view.lookup? n = some u → u.index < c₂.view.size := by
      intro n u hu
      rw [hc₂] at hu ⊢
      rcases NameTable.lookup?_bindPrimitive_eq_some hu with rfl | hu
      · exact hc₁.sound.minted.live ht
      · exact hc₁.sound.minted.live hu
    have hfirst : c₁.view.Enlarges c₂.view := by
      obtain ⟨log, hkeyed⟩ := hc₁.sound.keyed
      have hminted := hkeyed.minted
      have hregular := hc₁.sound.regular
      rw [hc₂] at hlive ⊢
      exact ⟨⟨⟨hregular.token, hregular.token_inj, hregular.writable⟩, log,
        ⟨hminted.token, hminted.name, hminted.parts, hminted.relabelled, hlive⟩, hkeyed.found,
        hkeyed.parts, hkeyed.count⟩, Nat.le_refl _, id, id⟩
    have hseed : (seedKind p).run c = .ok () c₂ := by
      rw [seedKind, run_bind_of_run hrun, hc₂]
      rfl
    have hrest := hc₁.enlarges.trans (hfirst.trans (ih hfirst.sound))
    rw [final] at hrest ⊢
    have hforM : ((p :: kinds).forM seedKind).run c = (kinds.forM seedKind).run c₂ :=
      run_bind_of_run hseed
    rw [hforM]
    exact hrest

/-- Seeding a registry that is added to sound ones keeps their types. -/
theorem enlarges_fresh (h : c.view.Sound) :
    (view { store := c.store }).Enlarges (fresh c.store).view := by
  have hminted := h.minted
  have hregular := h.regular
  have hbare : (view { store := c.store }).Minted := by
    refine ⟨hminted.token, hminted.name, hminted.parts, hminted.relabelled, fun {n t} ht => ?_⟩
    rw [lookup?_empty c.store n] at ht
    cases ht
  exact enlarges_seedKinds Primitive.all
    ⟨⟨hregular.token, hregular.token_inj, hregular.writable⟩, [], (History.start hbare rfl).keyed⟩

/-- The catalog of the first registry is sound. -/
theorem sound_fresh : (fresh {}).view.Sound :=
  (enlarges_fresh (c := {}) sound_empty).sound

end Catalog

end Nominal
