import Mathlib.Data.List.Dedup
import Nominal.Proofs.Catalog.Interning

/-!
# Histories of the tree

Types are created and named, names are bound, and rows of types are interned, in any order. The tree
of levels then is a finite map from rows of tokens to types: it holds the rows that were interned,
with the types that were returned for them. Whether a row is the start of another one, and which of
the two came first, makes no difference.

## Main results

* `exists_text`: every minted type has a text, so no report of the tree fails.
* `Call.keyed`: one call keeps the rows in the tree and the log of calls in step.
* `history_is_map`: what holds after any history.
-/

namespace Nominal

/-! ### Minted types -/

/-- Every type was minted: it has a token, a text for a name or none, and parts that are older than
itself, if it has parts. Names denote such types. -/
structure View.Minted (v : View) : Prop where
  /-- A token that was made by creation. -/
  token : ∀ {t}, t.index < v.size → ∃ k, v.token? t = some k ∧ k.minted = true
  /-- A text for a name, or none. -/
  name : ∀ {t}, t.index < v.size →
    v.name? t = some none ∨ ∃ n, v.name? t = some (some (.ofText n))
  /-- Older parts, or none. -/
  parts : ∀ {t}, t.index < v.size → v.parts? t = some none ∨
    ∃ base args, v.parts? t = some (some ⟨some base, args.map some⟩) ∧
      ∀ u ∈ base :: args, u.index < t.index
  /-- No token shows another serial. -/
  relabelled : v.relabelled = []
  /-- Names denote types that exist. -/
  live : ∀ {n t}, v.lookup? n = some t → t.index < v.size

namespace View.Minted

variable {v : View}

theorem create (h : v.Minted) {parts : Option TypeParts}
    (hparts : parts = none ∨ ∃ base args, parts = some ⟨some base, args.map some⟩ ∧
      ∀ u ∈ base :: args, u.index < v.size) : (v.create parts).Minted := by
  have hold : ∀ {t : TypeId}, t.index < v.size + 1 → t ≠ v.next → t.index < v.size :=
    fun {t} ht hne => Nat.lt_of_le_of_ne (Nat.le_of_lt_succ ht) fun e => hne (by
      cases t
      cases e
      rfl)
  refine ⟨fun {t} ht => ?_, fun {t} ht => ?_, fun {t} ht => ?_, h.relabelled,
    fun ht => Nat.lt_succ_of_lt (h.live ht)⟩
  · by_cases hn : t = v.next
    · exact ⟨⟨v.nextSerial, true⟩, by rw [create_token?, if_pos hn], rfl⟩
    · rw [create_token?, if_neg hn]
      exact h.token (hold ht hn)
  · by_cases hn : t = v.next
    · exact .inl (by rw [create_name?, if_pos hn])
    · rw [create_name?, if_neg hn]
      exact h.name (hold ht hn)
  · by_cases hn : t = v.next
    · subst hn
      rw [create_parts?, if_pos rfl]
      obtain rfl | ⟨base, args, rfl, hlt⟩ := hparts
      · exact .inl rfl
      · exact .inr ⟨base, args, rfl, hlt⟩
    · rw [create_parts?, if_neg hn]
      exact h.parts (hold ht hn)

theorem setName (h : v.Minted) (t : TypeId) (n : String) : (v.setName t n).Minted := by
  refine ⟨h.token, fun {u} hu => ?_, h.parts, h.relabelled, h.live⟩
  by_cases hn : u = t
  · subst hn
    exact .inr ⟨n, by rw [setName_name?, if_pos rfl]⟩
  · rw [setName_name?, if_neg hn]
    exact h.name hu

theorem bind (h : v.Minted) (n : String) {t : TypeId} (ht : t.index < v.size) :
    (v.bind n t).Minted := by
  refine ⟨h.token, h.name, h.parts, h.relabelled, fun {m u} hu => ?_⟩
  rw [bind_lookup?] at hu
  split at hu
  · cases hu
    exact ht
  · exact h.live hu

theorem place (h : v.Minted) (row : List Token) (t : TypeId) : (v.place row t).Minted :=
  ⟨h.token, h.name, h.parts, h.relabelled, h.live⟩

theorem counted (h : v.Minted) : v.counted.Minted :=
  ⟨h.token, h.name, h.parts, h.relabelled, h.live⟩

theorem exists_row (h : v.Minted) {ts : List TypeId} (hlive : ∀ u ∈ ts, u.index < v.size) :
    ∃ row, v.Row ts row := by
  induction ts with
  | nil => exact ⟨[], rfl⟩
  | cons t ts ih =>
      obtain ⟨k, hk, -⟩ := h.token (hlive t List.mem_cons_self)
      obtain ⟨row, hrow⟩ := ih fun u hu => hlive u (List.mem_cons_of_mem _ hu)
      exact ⟨k :: row, congr_arg₂ List.cons hk hrow⟩

end View.Minted

namespace Catalog

variable {c : Catalog}

theorem ok_bind {α β ε : Type} (a : α) (f : α → Except ε β) : (Except.ok a >>= f) = f a :=
  rfl

theorem serial?_of_minted {s : Store} (h : s.relabelled = []) {k : Token}
    (hk : k.minted = true) : s.serial? k = some (.ofNat k.serial) := by
  have hne : k ≠ .carrier := by
    rintro rfl
    cases hk
  rw [Store.serial?, if_neg hne, h]
  rfl

/-- Labels that are texts, read one after the other, have texts. -/
theorem exists_mapM_label {α : Type} {f : α → Except Failure Label} {l : List α}
    (h : ∀ a ∈ l, ∃ n, f a = .ok (.ofText n)) :
    ∃ labels texts, l.mapM f = .ok labels ∧ labels.mapM Label.text? = some texts := by
  induction l with
  | nil => exact ⟨[], [], rfl, rfl⟩
  | cons a l ih =>
      obtain ⟨n, hn⟩ := h a List.mem_cons_self
      obtain ⟨labels, texts, hlabels, htexts⟩ := ih fun b hb => h b (List.mem_cons_of_mem _ hb)
      refine ⟨.ofText n :: labels, n :: texts, ?_, ?_⟩
      · rw [List.mapM_cons, hn, hlabels]
        rfl
      · rw [List.mapM_cons, Label.text?_ofText, htexts]
        rfl

/-- A minted type is called by some text; its parts are reached before the budget is used up. -/
theorem exists_labelWithin (h : c.view.Minted) {fuel : Nat} {t : TypeId}
    (ht : t.index < c.view.size) (hfuel : t.index < fuel) :
    ∃ n, c.store.labelWithin fuel t = .ok (.ofText n) := by
  induction fuel generalizing t with
  | zero => omega
  | succ fuel ih =>
      rw [Store.labelWithin]
      rcases h.name ht with hname | ⟨n, hname⟩
      · rw [store_name?, hname]
        rcases h.parts ht with hparts | ⟨base, args, hparts, hold⟩
        · obtain ⟨k, hk, hminted⟩ := h.token ht
          rw [store_parts?, hparts, store_token?, hk]
          simp only [Store.needed, ok_bind, serial?_of_minted h.relabelled hminted]
          exact ⟨_, rfl⟩
        · have hlabel : ∀ u ∈ base :: args, ∃ n, c.store.labelWithin fuel u = .ok (.ofText n) :=
            fun u hu => by
              have hlt := hold u hu
              exact ih (by omega) (by omega)
          obtain ⟨bn, hbn⟩ := hlabel base List.mem_cons_self
          obtain ⟨labels, texts, hlabels, htexts⟩ :=
            exists_mapM_label fun u hu => hlabel u (List.mem_cons_of_mem _ hu)
          rw [store_parts?, hparts]
          simp only [Store.needed, ok_bind, List.mapM_map, Function.comp_def, hlabels, htexts, hbn]
          exact ⟨_, rfl⟩
      · rw [store_name?, hname]
        exact ⟨n, rfl⟩

/-- A minted type has a text. -/
theorem exists_text (h : c.view.Minted) {t : TypeId} (ht : t.index < c.view.size) :
    ∃ s, c.store.text t = .ok s := by
  obtain ⟨n, hn⟩ := exists_labelWithin h ht (Nat.lt_succ_self t.index)
  refine ⟨n, ?_⟩
  rw [Store.text, Store.label, hn]
  rfl

theorem namesOf?_not_called {ts : List TypeId}
    (h : ∀ t ∈ ts, c.view.name? t = some none ∨ ∃ n, c.view.name? t = some (some (.ofText n)))
    (hcalled : ¬ ∃ ns, c.view.Called ts ns) : namesOf? c.store ts = some none := by
  induction ts with
  | nil => exact absurd ⟨[], rfl⟩ hcalled
  | cons t ts ih =>
      rcases h t List.mem_cons_self with ht | ⟨n, ht⟩
      · rw [namesOf?, store_name?, ht]
      · have hrest : ¬ ∃ ns, c.view.Called ts ns := by
          rintro ⟨ns, hns⟩
          exact hcalled ⟨n :: ns, congr_arg₂ List.cons ht hns⟩
        rw [namesOf?, store_name?, ht]
        simp [ih (fun u hu => h u (List.mem_cons_of_mem _ hu)) hrest]

/-- A new type for a row of minted types, and what the catalog shows afterwards. -/
structure Admits (v : View) (base : TypeId) (args : List TypeId) (v' : View) : Prop where
  /-- All types are minted still. -/
  minted : v'.Minted
  /-- What was shown is shown still. -/
  extends_view : v.Extends v'
  /-- The tree leads to the same types as before. -/
  find? : v'.find? = v.find?
  /-- The new type is counted. -/
  count : v'.count = v.count + 1
  /-- The new type has the given parts. -/
  parts? : v'.parts? v.next = some (some ⟨some base, args.map some⟩)

namespace Admits

variable {v v' : View} {base : TypeId} {args : List TypeId}

theorem setName (h : Admits v base args v') {t : TypeId} (ht : v'.name? t = some none)
    (n : String) : Admits v base args (v'.setName t n) :=
  ⟨h.minted.setName t n, h.extends_view.trans (View.extends_setName ht), h.find?, h.count, h.parts?⟩

theorem bind (h : Admits v base args v') {n : String} (hn : v'.lookup? n = none) {t : TypeId}
    (ht : t.index < v'.size) : Admits v base args (v'.bind n t) :=
  ⟨h.minted.bind n ht, h.extends_view.trans (View.extends_bind hn), h.find?, h.count, h.parts?⟩

end Admits

theorem admits_created {base : TypeId} {args : List TypeId} (h : c.view.Minted)
    (hlive : ∀ u ∈ base :: args, u.index < c.view.size) :
    Admits c.view base args (c.created base args).view := by
  have hext := extends_created c base args
  rw [view_created] at hext ⊢
  exact ⟨(h.create (.inr ⟨base, args, rfl, hlive⟩)).counted, hext, rfl, rfl,
    Function.update_self _ _ _⟩

/-- A new type is created for any row of minted types, whether or not they have names. -/
theorem run_createInterned {base : TypeId} {args : List TypeId} (h : c.view.Minted)
    (hlive : ∀ u ∈ base :: args, u.index < c.view.size) :
    ∃ c', (createInterned base args).run c = .ok c.view.next c' ∧
      c'.interner.root = c.interner.root ∧ Admits c.view base args c'.view := by
  have hadm := admits_created h hlive
  have hnew : c.view.next.index < (c.created base args).view.size := by
    rw [view_created]
    exact Nat.lt_succ_self _
  have hsize : ∀ u ∈ base :: args, u.index < (c.created base args).view.size := fun u hu =>
    Nat.lt_of_lt_of_le (hlive u hu) hadm.extends_view.size
  by_cases hcalled : ∃ ns, (c.created base args).view.Called (base :: args) ns
  · obtain ⟨_ | ⟨bn, ns⟩, hns⟩ := hcalled
    · cases hns
    have hnone : (c.created base args).view.name? c.view.next = some none := by
      rw [view_created]
      exact Function.update_self _ _ _
    have hnamed := hadm.setName hnone (appliedName bn ns)
    have htext : ∀ u : TypeId, u.index < c.view.size → ∃ s,
        ((c.created base args).store.setName c.view.next
          (some (.ofText (appliedName bn ns)))).text u = .ok s := by
      intro u hu
      have hview := view_setName hnew (appliedName bn ns)
      have hlt := Nat.lt_of_lt_of_le hu hnamed.extends_view.size
      rw [← hview] at hnamed hlt
      exact exists_text hnamed.minted hlt
    obtain ⟨c', hrun, hroot, hview'⟩ :=
      run_createInterned_named hns fun {u} hu => htext u (h.live hu)
    refine ⟨c', hrun, hroot, ?_⟩
    rw [hview']
    by_cases hfree : c.view.lookup? (appliedName bn ns) = none
    · have hlookup : (c.created base args).view.lookup? = c.view.lookup? := by
        rw [view_created]
        rfl
      rw [if_pos hfree]
      exact hnamed.bind ((congrFun hlookup _).trans hfree) hnew
    · rw [if_neg hfree]
      exact hnamed
  · obtain ⟨s, hs⟩ := exists_text hadm.minted hnew
    obtain ⟨c', hrun, hroot, hview⟩ := run_createInterned_unnamed
      (namesOf?_not_called (fun u hu => hadm.minted.name (hsize u hu)) hcalled) hs
    exact ⟨c', hrun, hroot, hview ▸ hadm⟩

/-! ### Calls -/

/-- One call, from a catalog to a catalog, and what it adds to the log: the row that was interned
and the type that was returned for it. -/
inductive Call : Catalog → Catalog → List (List Token × TypeId) → Prop
  | create (c : Catalog) : Call c { c with store := c.store.create.2 } []
  | createComplex (c : Catalog) {base : TypeId} {args : List TypeId} :
      (∀ u ∈ base :: args, u.index < c.store.cells.size) →
      Call c { c with store := (c.store.createComplex ⟨some base, args.map some⟩).2 } []
  | assignName {c : Catalog} {t : TypeId} {n : String} {s : Store} :
      c.store.assignName t n = .ok s → Call c { c with store := s } []
  | named (c : Catalog) (n : String) : Call c (final (named n) c) []
  | bindName {c : Catalog} (n : String) {t : TypeId} :
      t.index < c.store.cells.size → Call c (final (bindName n t) c) []
  | intern {c c' : Catalog} {base : TypeId} {args : List TypeId} {row : List Token} {t : TypeId} :
      (∀ u ∈ base :: args, u.index < c.store.cells.size) → args ≠ [] →
      (base :: args).map c.store.token? = row.map some → (intern base args).run c = .ok t c' →
      Call c c' [(row, t)]

/-- Calls in any order, starting with an empty tree over minted types. The log is newest first. -/
inductive History : Catalog → List (List Token × TypeId) → Prop
  | start {c : Catalog} : c.view.Minted → c.interner = {} → History c []
  | call {c c' : Catalog} {log new : List (List Token × TypeId)} :
      History c log → Call c c' new → History c' (new ++ log)

/-- The tree holds what the log says, and the types in the log have the parts of their rows. -/
structure Keyed (v : View) (log : List (List Token × TypeId)) : Prop where
  /-- All types are minted. -/
  minted : v.Minted
  /-- The tree holds the rows of the log. -/
  found : ∀ row t, v.find? row = some t ↔ (row, t) ∈ log
  /-- A type in the log has the parts of its row. -/
  parts : ∀ {row t}, (row, t) ∈ log → ∃ base args,
    v.parts? t = some (some ⟨some base, args.map some⟩) ∧ v.Row (base :: args) row
  /-- Each row is counted once. -/
  count : v.count = (log.map Prod.fst).dedup.length

namespace Keyed

variable {v v' : View} {log : List (List Token × TypeId)}

/-- What does not touch the tree leaves it in step with the log. -/
theorem extend (h : Keyed v log) (hext : v.Extends v') (hminted : v'.Minted)
    (hfind : v'.find? = v.find?) (hcount : v'.count = v.count) : Keyed v' log := by
  refine ⟨hminted, hfind ▸ h.found, fun hmem => ?_, hcount.trans h.count⟩
  obtain ⟨base, args, hparts, hrow⟩ := h.parts hmem
  exact ⟨base, args, hext.parts? hparts, hrow.mono hext⟩

/-- A row that is in the log already can be logged again. -/
theorem again (h : Keyed v log) {row : List Token} {t : TypeId} (hmem : (row, t) ∈ log) :
    Keyed v ((row, t) :: log) := by
  refine ⟨h.minted, fun row' t' => ?_, fun hmem' => ?_, ?_⟩
  · rw [h.found, List.mem_cons]
    exact ⟨.inr, fun h' => h'.elim (fun e => e ▸ hmem) id⟩
  · rcases List.mem_cons.1 hmem' with e | hmem'
    · cases e
      exact h.parts hmem
    · exact h.parts hmem'
  · rw [h.count, List.map_cons, List.dedup_cons_of_mem (List.mem_map_of_mem (f := Prod.fst) hmem)]

/-- A new row is logged with its new type. -/
theorem place (h : Keyed v log) {base : TypeId} {args : List TypeId} {row : List Token}
    (hfind : v.find? row = none) (hrow : v.Row (base :: args) row)
    (hadm : Admits v base args v') : Keyed (v'.place row v.next) ((row, v.next) :: log) := by
  have hext : v.Extends (v'.place row v.next) :=
    hadm.extends_view.trans (View.extends_place ((congrFun hadm.find? row).trans hfind))
  have hnotMem : row ∉ log.map Prod.fst := by
    rintro hmem
    obtain ⟨⟨row', t⟩, hmem', rfl⟩ := List.mem_map.1 hmem
    have hsome := (h.found _ _).2 hmem'
    rw [hfind] at hsome
    cases hsome
  refine ⟨hadm.minted.place row v.next, fun row' t' => ?_, fun hmem => ?_, ?_⟩
  · rw [View.place_find?, hadm.find?, List.mem_cons, ← h.found, Prod.mk.injEq]
    by_cases hrow' : row' = row
    · subst hrow'
      rw [if_pos rfl, hfind]
      simp [eq_comm]
    · rw [if_neg hrow']
      simp [hrow']
  · rcases List.mem_cons.1 hmem with e | hmem
    · cases e
      exact ⟨base, args, hadm.parts?, hrow.mono hext⟩
    · obtain ⟨base', args', hparts, hrow'⟩ := h.parts hmem
      exact ⟨base', args', hext.parts? hparts, hrow'.mono hext⟩
  · rw [List.map_cons, List.dedup_cons_of_notMem hnotMem, List.length_cons, ← h.count]
    exact hadm.count

end Keyed

/-- A row of types that exist is interned, whatever the tree looks like. -/
theorem keyed_intern {log : List (List Token × TypeId)} {base : TypeId} {args : List TypeId}
    {row : List Token} (h : Keyed c.view log) (hlive : ∀ u ∈ base :: args, u.index < c.view.size)
    (hargs : args ≠ []) (hrow : c.view.Row (base :: args) row) :
    ∃ t c', (intern base args).run c = .ok t c' ∧ Keyed c'.view ((row, t) :: log) := by
  have htext : ∀ {row t}, c.view.find? row = some t → ∃ s, c.store.text t = .ok s := by
    intro row t ht
    obtain ⟨base, args, hparts, -⟩ := h.parts ((h.found row t).1 ht)
    refine exists_text h.minted (Nat.lt_of_not_le fun hle => ?_)
    rw [(view_eq_none hle).2.2] at hparts
    cases hparts
  cases hfind : c.view.find? row with
  | some t =>
      obtain ⟨c', hrun, hview⟩ := run_intern_of_find? hargs hrow htext hfind
      exact ⟨t, c', hrun, hview ▸ h.again ((h.found row t).1 hfind)⟩
  | none =>
      obtain ⟨c', v, hrun, hview, hadm⟩ := run_intern_of_find?_eq_none hargs hrow htext hfind
        (R := Admits c.view base args) fun c₁ hc₁ => hc₁ ▸ run_createInterned (hc₁ ▸ h.minted)
          (hc₁ ▸ hlive)
      exact ⟨c.view.next, c', hrun, hview ▸ h.place hfind hrow hadm⟩

theorem keyed_named {log : List (List Token × TypeId)} (h : Keyed c.view log) (n : String) :
    Keyed (final (named n) c).view log := by
  cases hfound : c.view.lookup? n with
  | some t =>
      rw [final_of_run (run_named_of_some hfound)]
      exact h
  | none =>
      obtain ⟨c', hrun, hview⟩ := run_named_of_none hfound
      have hnew : c.view.next.index < (c.view.create none).size := Nat.lt_succ_self _
      have hminted := ((h.minted.create (.inl rfl)).setName c.view.next n).bind n hnew
      rw [final_of_run hrun, hview]
      exact h.extend (extends_enter hfound none) hminted rfl rfl

theorem keyed_bindName {log : List (List Token × TypeId)} (h : Keyed c.view log) (n : String)
    {t : TypeId} (ht : t.index < c.view.size) : Keyed (final (bindName n t) c).view log := by
  cases hfound : c.view.lookup? n with
  | none =>
      rw [final_of_run (run_bindName_of_none hfound t), view_bind hfound]
      exact h.extend (View.extends_bind hfound) (h.minted.bind n ht) rfl rfl
  | some u =>
      rw [final_bindName_of_some hfound]
      exact h

/-- A type is given a name only if it has none. -/
theorem assignName_ok {s s' : Store} {t : TypeId} {n : String} (h : s.assignName t n = .ok s') :
    s' = s ∨ s.name? t = some none ∧ s' = s.setName t (some (.ofText n)) := by
  unfold Store.assignName Store.checkUnnamed at h
  cases hname : s.name? t with
  | none =>
      rw [hname] at h
      cases h
  | some name =>
      cases name with
      | none =>
          rw [hname] at h
          exact .inr ⟨rfl, (Except.ok.inj h).symm⟩
      | some l =>
          simp only [hname, Store.needed, ok_bind] at h
          split at h
          · exact .inl (Except.ok.inj h).symm
          · cases htext : s.text t with
            | ok _ =>
                rw [htext] at h
                cases h
            | error _ =>
                rw [htext] at h
                cases h

theorem keyed_assignName {log : List (List Token × TypeId)} (h : Keyed c.view log) {t : TypeId}
    {n : String} {s : Store} (hs : c.store.assignName t n = .ok s) :
    Keyed { c with store := s }.view log := by
  obtain rfl | ⟨hname, rfl⟩ := assignName_ok hs
  · exact h
  · rw [view_setName (lt_size_of_name? hname)]
    exact h.extend (View.extends_setName hname) (h.minted.setName t n) rfl rfl

/-- One call keeps the tree in step with the log. -/
theorem Call.keyed {c' : Catalog} {log new : List (List Token × TypeId)} (h : Keyed c.view log)
    (hcall : Call c c' new) : Keyed c'.view (new ++ log) := by
  cases hcall with
  | create =>
      have hcreate : c.store.create = c.store.createWith (.ofOption none) := rfl
      rw [hcreate, view_create]
      exact h.extend (extends_create c none) (h.minted.create (.inl rfl)) rfl rfl
  | @createComplex base args hlive =>
      have hcreate : c.store.createComplex ⟨some base, args.map some⟩ =
          c.store.createWith (.ofOption (some ⟨some base, args.map some⟩)) := rfl
      rw [hcreate, view_create]
      exact h.extend (extends_create c _) (h.minted.create (.inr ⟨base, args, rfl, hlive⟩)) rfl rfl
  | assignName hs => exact keyed_assignName h hs
  | named n => exact keyed_named h n
  | bindName n ht => exact keyed_bindName h n ht
  | intern hlive hargs hrow hrun =>
      obtain ⟨t, c', hrun', hkeyed⟩ := keyed_intern h hlive hargs hrow
      rw [hrun] at hrun'
      cases hrun'
      exact hkeyed

theorem History.keyed {log : List (List Token × TypeId)} (h : History c log) :
    Keyed c.view log := by
  induction h with
  | start hminted hempty =>
      have hfind : ∀ row, View.find? (view _) row = none := fun row => by
        rw [view, hempty]
        cases row <;> rfl
      refine ⟨hminted, fun row t => by simp [hfind], fun hmem => ?_, ?_⟩
      · cases hmem
      · rw [view, hempty]
        rfl
  | call _ hcall ih => exact hcall.keyed ih

/-- After any calls in any order, the tree of levels is a finite map from rows of tokens to types.
It holds the rows that were interned, each with the one type that was returned for it, at any time.
Two calls returned the same type exactly when their rows are the same. The parts of a type carry the
tokens of its row. Every row is counted once. Every further call returns. -/
theorem history_is_map {log : List (List Token × TypeId)} (h : History c log) :
    (∀ row t, c.interner.find? row = some t ↔ (row, t) ∈ log) ∧
    (∀ row t row' t', (row, t) ∈ log → (row', t') ∈ log → (t = t' ↔ row = row')) ∧
    (∀ row t, (row, t) ∈ log → ∃ base args, c.store.base? t = some base ∧
      c.store.arguments? t = some (some (args.map some)) ∧
      (base :: args).map c.store.token? = row.map some) ∧
    c.interner.count = (log.map Prod.fst).dedup.length ∧
    ∀ base args, (∀ u ∈ base :: args, u.index < c.store.cells.size) → args ≠ [] →
      ∃ row t c', (base :: args).map c.store.token? = row.map some ∧
        (intern base args).run c = .ok t c' ∧ History c' ((row, t) :: log) := by
  have hk := h.keyed
  refine ⟨hk.found, fun row t row' t' hmem hmem' => ⟨?_, ?_⟩, fun row t hmem => ?_, hk.count,
    fun base args hlive hargs => ?_⟩
  · rintro rfl
    obtain ⟨base, args, hparts, hrow⟩ := hk.parts hmem
    obtain ⟨base', args', hparts', hrow'⟩ := hk.parts hmem'
    obtain ⟨rfl, rfl⟩ : base = base' ∧ args = args' := by
      rw [hparts] at hparts'
      simpa [List.map_inj_right] using hparts'
    exact hrow.unique hrow'
  · rintro rfl
    have ht := (hk.found _ _).2 hmem
    rw [(hk.found _ _).2 hmem'] at ht
    exact (Option.some.inj ht).symm
  · obtain ⟨base, args, hparts, hrow⟩ := hk.parts hmem
    have hparts : c.store.parts? t = _ := hparts
    exact ⟨base, args, by rw [Store.base?, hparts]; rfl, by rw [Store.arguments?, hparts]; rfl,
      hrow⟩
  · obtain ⟨row, hrow⟩ := hk.minted.exists_row hlive
    obtain ⟨t, c', hrun, -⟩ := keyed_intern hk hlive hargs hrow
    exact ⟨row, t, c', hrow, hrun, h.call (.intern hlive hargs hrow hrun)⟩

/-- Two types without names. -/
def twoTypes : Catalog :=
  { store := (Store.create (Store.create {}).2).2 }

/-- A row of two types, then a longer row that starts with it: the first type is demoted, and both
rows are found. -/
theorem history_is_map_twoTypes :
    ∃ c, History c [([⟨1, true⟩, ⟨2, true⟩, ⟨1, true⟩], ⟨3⟩), ([⟨1, true⟩, ⟨2, true⟩], ⟨2⟩)] ∧
      c.interner.find? [⟨1, true⟩, ⟨2, true⟩] = some ⟨2⟩ ∧
      c.interner.find? [⟨1, true⟩, ⟨2, true⟩, ⟨1, true⟩] = some ⟨3⟩ ∧ c.interner.count = 2 := by
  have hnames : ∀ n, (view {}).lookup? n = none := fun n => by
    change (Primitive.ofKey? n >>= fun _ => none).orElse _ = none
    cases Primitive.ofKey? n <;> rfl
  have hempty : (view {}).Minted :=
    ⟨fun ht => absurd ht (Nat.not_lt_zero _), fun ht => absurd ht (Nat.not_lt_zero _),
      fun ht => absurd ht (Nat.not_lt_zero _), rfl, fun {n t} ht => by
        rw [hnames] at ht
        cases ht⟩
  have hminted : twoTypes.view.Minted := by
    have hview : twoTypes.view = ((view {}).create none).create none := by
      rw [← view_create, ← view_create]
      rfl
    exact hview ▸ (hempty.create (.inl rfl)).create (.inl rfl)
  have hrun : (intern ⟨0⟩ [⟨1⟩]).run twoTypes =
      .ok ⟨2⟩ (final (intern ⟨0⟩ [⟨1⟩]) twoTypes) := rfl
  have hfirst : Call _ _ [([⟨1, true⟩, ⟨2, true⟩], ⟨2⟩)] :=
    .intern (by decide) (by decide) rfl hrun
  have hrun' : (intern ⟨0⟩ [⟨1⟩, ⟨0⟩]).run (final (intern ⟨0⟩ [⟨1⟩]) twoTypes) =
      .ok ⟨3⟩ (final (intern ⟨0⟩ [⟨1⟩, ⟨0⟩]) (final (intern ⟨0⟩ [⟨1⟩]) twoTypes)) := rfl
  have hsecond : Call _ _ [([⟨1, true⟩, ⟨2, true⟩, ⟨1, true⟩], ⟨3⟩)] :=
    .intern (by decide) (by decide) rfl hrun'
  have hhistory := ((History.start hminted rfl).call hfirst).call hsecond
  obtain ⟨hfound, -, -, hcount, -⟩ := history_is_map hhistory
  exact ⟨_, hhistory, (hfound _ _).2 (by decide), (hfound _ _).2 (by decide), hcount⟩

end Catalog

end Nominal
