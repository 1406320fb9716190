import Nominal.Proofs.Catalog.Runs
import Nominal.Proofs.Reference.Expression

/-!
# Types and expressions

A type spells an expression if it decomposes, down to names, into the heads of the expression. In a
registry that resolved any texts before, a rendering of an expression always resolves, to the one
type that spells the expression with keys of primitive kinds replaced by display names.

## Main results

* `Store.Spells.unique`: a type spells one expression.
* `View.Settled.type_unique`: an expression is spelled by one type of a registry.
* `resolve_rendering`: renderings resolve to the same type exactly if their expressions are the same
  up to keys.
-/

namespace Nominal

open Text Reference

/-! ### Display names -/

namespace Reference

theorem Word.nameOf {n : String} (h : Word n.toList) : Word (Primitive.nameOf n).toList := by
  cases hp : Primitive.ofKey? n with
  | none =>
      rw [Primitive.nameOf_of_ofKey? hp]
      exact h
  | some p =>
      rw [Primitive.eq_key_of_ofKey? hp, Primitive.nameOf_key]
      cases p <;> decide

/-- The head with the display name in the place of a key. In a module, no name is a key. -/
def Head.display (h : Head) : Head where
  module := h.module
  name := if h.module = none then Primitive.nameOf h.name else h.name
  module_word := h.module_word
  name_word := by
    split
    · exact h.name_word.nameOf
    · exact h.name_word

theorem Head.text_display (h : Head) : h.display.text = Primitive.nameOf h.text := by
  cases hm : h.module with
  | none => simp [display, text, Parts.qualifiedName, hm]
  | some m =>
      have hcolon : ':' ∈ h.text.toList := by
        rw [toList_text, hm]
        simp [qualified, front]
      rw [Primitive.nameOf_of_mem (by decide) hcolon]
      simp [display, text, hm]

/-- The head without a module. -/
def Head.ofName (n : String) (h : Word n.toList) : Head :=
  ⟨none, n, by simp, h⟩

/-- The expression with display names in the places of keys. -/
def Expression.display : Expression → Expression
  | .node head args => .node head.display (args.map display)

@[simp] theorem Expression.display_node (head : Head) (args : List Expression) :
    display (.node head args) = .node head.display (args.map display) := by
  rw [display]

end Reference

/-! ### Spelling -/

namespace Store

/-- A type without arguments is its own base, and has a name. -/
structure Plain (s : Store) (t : TypeId) (n : String) : Prop where
  /-- It is its own base. -/
  base? : s.base? t = some t
  /-- It has no arguments. -/
  arguments? : s.arguments? t = some none
  /-- It has the name. -/
  name? : s.name? t = some (some (.ofText n))

/-- A type spells an expression: taken apart into its base and its arguments, and these likewise, it
has the heads of the expression for names. -/
inductive Spells (s : Store) : TypeId → Expression → Prop
  | plain {t : TypeId} {head : Head} : s.Plain t head.text → Spells s t (.node head [])
  | applied {t base : TypeId} {args : List TypeId} {head : Head} {es : List Expression} :
      s.base? t = some base → s.arguments? t = some (some (args.map some)) → args ≠ [] →
      s.Plain base head.text → List.Forall₂ (Spells s) args es → Spells s t (.node head es)

variable {s s' : Store} {t : TypeId} {n m : String}

theorem plain_of_parts? (hparts : s.parts? t = some none)
    (hname : s.name? t = some (some (.ofText n))) : s.Plain t n := by
  refine ⟨?_, ?_, hname⟩
  · rw [Store.base?, hparts]
    rfl
  · rw [Store.arguments?, hparts]
    rfl

theorem Plain.parts? (h : s.Plain t n) : s.parts? t = some none := by
  have harguments := h.arguments?
  rw [Store.arguments?] at harguments
  simpa using harguments

theorem Plain.unique (h : s.Plain t n) (h' : s.Plain t m) : n = m := by
  have hname := h.name?.symm.trans h'.name?
  simp only [Option.some.injEq] at hname
  exact congrArg Label.spelling hname

/-- A type spells one expression. -/
theorem Spells.unique {e e' : Expression} (h : s.Spells t e) (h' : s.Spells t e') : e = e' := by
  induction e using Expression.induction generalizing t e' with
  | node head es ih =>
      cases h with
      | plain hplain =>
          cases h' with
          | plain hplain' => rw [Head.text_injective (hplain.unique hplain')]
          | applied _ hargs' _ _ _ =>
              rw [hplain.arguments?] at hargs'
              cases hargs'
      | applied hbase hargs hne hplain hspells =>
          cases h' with
          | plain hplain' =>
              rw [hplain'.arguments?] at hargs
              cases hargs
          | applied hbase' hargs' _ hplain' hspells' =>
              obtain rfl := Option.some.inj (hbase.symm.trans hbase')
              have hsame := hargs.symm.trans hargs'
              simp only [Option.some.injEq] at hsame
              obtain rfl := List.map_injective_iff.2 (Option.some_injective _) hsame
              have hargs : List.Forall₂ (fun e a => ∀ e', s.Spells a e' → e = e') es _ :=
                forall₂_imp_mem hspells.flip fun e he _ _ ha _ => ih e he ha
              rw [Head.text_injective (hplain.unique hplain'),
                eq_of_forall₂ hargs hspells' fun _ _ _ he => he _]

end Store

namespace Catalog

variable {old : Nat} {s : Store} {c c' : Catalog} {t u : TypeId}

theorem plain_mono {n : String} (h : c.store.Plain t n) (hext : c.view.Extends c'.view) :
    c'.store.Plain t n :=
  Store.plain_of_parts? (hext.parts? h.parts?) (hext.name? h.name?)

/-- What a type spells, it spells from then on. -/
theorem spells_mono {e : Expression} (h : c.store.Spells t e) (hext : c.view.Extends c'.view) :
    c'.store.Spells t e := by
  induction e using Expression.induction generalizing t with
  | node head es ih =>
      cases h with
      | plain hplain => exact .plain (plain_mono hplain hext)
      | @applied _ base args _ _ hbase hargs hne hplain hspells =>
          obtain ⟨parts, hparts, -⟩ := Option.map_eq_some_iff.1 hbase
          have hparts' : c'.store.parts? t = some parts := hext.parts? hparts
          refine .applied ?_ ?_ hne (plain_mono hplain hext)
            (forall₂_imp_mem hspells fun _ _ e he ha => ih e he ha)
          · rw [← hbase, Store.base?, Store.base?, hparts, hparts']
          · rw [← hargs, Store.arguments?, Store.arguments?, hparts, hparts']

/-! ### One type for each expression -/

theorem named_of_plain (h : c.view.Canonical s.cells.size) (hown : Owned s c t) {n : String}
    (ht : c.store.Plain t n) : c.view.Named t n := by
  obtain ⟨m, hm⟩ := h.owned hown.1 hown.2
  have hname := hm.name.symm.trans ht.name?
  simp only [Option.some.injEq] at hname
  obtain rfl : m = n := congrArg Label.spelling hname
  exact hm

/-- A type of the registry with arguments is made of types of the registry, and no other type is
made of the same. -/
theorem applied_of_arguments? (h : c.view.Canonical s.cells.size) (hown : Owned s c t)
    {base : TypeId} {args : List TypeId} (hbase : c.store.base? t = some base)
    (hargs : c.store.arguments? t = some (some (args.map some))) :
    ∃ bn ns, c.view.Applied t base args bn ns := by
  obtain ⟨n, hn⟩ := h.owned hown.1 hown.2
  rcases h.shape hn with ⟨hparts, -⟩ | ⟨base', args', bn, ns, -, happ⟩
  · have hparts : c.store.parts? t = some none := hparts
    rw [Store.arguments?, hparts] at hargs
    cases hargs
  · have hparts : c.store.parts? t = some (some ⟨some base', args'.map some⟩) := happ.parts
    rw [Store.base?, hparts] at hbase
    rw [Store.arguments?, hparts] at hargs
    obtain rfl : base' = base := Option.some.inj hbase
    have hsame : some (args'.map some) = some (args.map some) := Option.some.inj hargs
    obtain rfl := List.map_injective_iff.2 (Option.some_injective _) (Option.some.inj hsame)
    exact ⟨bn, ns, happ⟩

/-- No two types of a registry spell the same. -/
theorem type_unique_of_spells (h : c.view.Canonical s.cells.size) {e : Expression}
    (hownt : Owned s c t) (hownu : Owned s c u) (ht : c.store.Spells t e)
    (hu : c.store.Spells u e) : t = u := by
  have hmem : ∀ {v n}, c.view.Named v n → Owned s c v := h.mem
  induction e using Expression.induction generalizing t u with
  | node head es ih =>
      cases ht with
      | plain ht =>
          cases hu with
          | plain hu =>
              exact (named_of_plain h hownt ht).type_unique (named_of_plain h hownu hu)
          | applied _ _ hne _ hspells =>
              cases hspells
              exact absurd rfl hne
      | applied hbase hargs hne hplain hspells =>
          cases hu with
          | plain _ =>
              cases hspells
              exact absurd rfl hne
          | applied hbase' hargs' _ hplain' hspells' =>
              obtain ⟨bn, ns, happ⟩ := applied_of_arguments? h hownt hbase hargs
              obtain ⟨bn', ns', happ'⟩ := applied_of_arguments? h hownu hbase' hargs'
              have hbase_eq := (named_of_plain h (hmem happ.base_named) hplain).type_unique
                (named_of_plain h (hmem happ'.base_named) hplain')
              subst hbase_eq
              have hleft : List.Forall₂ (fun a e => ∀ b, Owned s c b → c.store.Spells b e → a = b)
                  _ es := forall₂_imp_mem hspells fun a ha e he hae b hb hbe => by
                obtain ⟨n, -, hn⟩ := exists_mem_right happ.args_named ha
                exact ih e he (hmem hn) hb hae hbe
              have hright : List.Forall₂ (fun e b => Owned s c b ∧ c.store.Spells b e) es _ :=
                forall₂_imp_mem hspells'.flip fun e _ b hb hbe => by
                  obtain ⟨n, -, hn⟩ := exists_mem_right happ'.args_named hb
                  exact ⟨hmem hn, hbe⟩
              have hargs_eq := eq_of_forall₂ hleft hright fun _ _ b ha hb => ha b hb.1 hb.2
              subst hargs_eq
              exact happ.type_unique happ'

/-! ### Renderings -/

/-- What a head denotes is a type without parts that has the display name. -/
theorem plain_of_lookup? (h : c.view.Canonical old) {head : Head}
    (ht : c.view.lookup? head.text = some t) : c.store.Plain t head.display.text := by
  have hnamed := h.called_nameOf ht
  have hbare := Primitive.bare_nameOf head.bare_text
  rw [head.text_display]
  exact Store.plain_of_parts? (h.parts?_of_bare hnamed hbare) hnamed.name

/-- A type with parts spells what these spell. -/
theorem spells_of_applied (h : c.view.Canonical old) {head : Head} {es : List Expression}
    {base : TypeId} {args : List TypeId} {bn : String} {ns : List String}
    (happ : c.view.Applied t base args bn ns) (hbase : c.view.lookup? head.text = some base)
    (hargs : List.Forall₂ (fun a (e : Expression) => c.store.Spells a e.display) args es) :
    c.store.Spells t (Expression.display (.node head es)) := by
  have hparts : c.store.parts? t = some (some ⟨some base, args.map some⟩) := happ.parts
  rw [Expression.display_node]
  refine .applied ?_ ?_ happ.args_ne_nil (plain_of_lookup? h hbase)
    (List.forall₂_map_right_iff.2 hargs)
  · rw [Store.base?, hparts]
    rfl
  · rw [Store.arguments?, hparts]
    rfl

/-- A type that is denoted by an outline which follows an expression spells the expression. -/
theorem spells_of_denotes {strict : Bool} {o : Outline} {e : Expression} (h : c.view.Canonical old)
    (ho : o.Faithful strict) (hfollows : o.Follows e) (htight : o.Tight)
    (hdenotes : c.view.Denotes o t) : c.store.Spells t e.display := by
  induction o using Outline.induction generalizing e t with
  | malformed text fault => cases hfollows
  | wellFormed text parts params ih =>
      cases hfollows with
      | @node _ _ _ head es hhead hparams =>
          cases htight with
          | bare htext =>
              cases hparams
              have ht : c.view.lookup? head.text = some t := by
                cases hdenotes with
                | known ht => rw [← hhead, ← htext]; exact ht
                | base ht => rw [← hhead]; exact ht
                | applied _ hne => exact absurd rfl hne
              rw [Expression.display_node]
              exact .plain (plain_of_lookup? h ht)
          | applied hne hgap htext htights =>
              have hspells : ∀ {args}, List.Forall₂ c.view.Denotes params args →
                  List.Forall₂ (fun a (e : Expression) => c.store.Spells a e.display) args es :=
                fun hargs => forall₂_trans hargs.flip hparams fun o ho' a e ha he =>
                  ih o ho' (ho.of_mem ho') he (htights o ho') ha
              cases hdenotes with
              | known ht =>
                  obtain ⟨base, args, happ⟩ := h.applied_of_tight ho hne hgap htext ht
                  have hargs : List.Forall₂ c.view.Denotes params args :=
                    (List.forall₂_map_right_iff.1 happ.args_named).flip.imp fun _ _ ha =>
                      .known ha.found
                  exact spells_of_applied h happ (hhead ▸ happ.base_named.found) (hspells hargs)
              | base ht => exact absurd rfl hne
              | applied hbase _ hargs happ =>
                  exact spells_of_applied h happ (hhead ▸ hbase) (hspells hargs)

theorem not_faulty_of_follows {o : Outline} {e : Expression} (h : o.Follows e) : ¬ o.Faulty := by
  induction o using Outline.induction generalizing e with
  | malformed text fault => cases h
  | wellFormed text parts params ih =>
      intro hfaulty
      cases h with
      | node _ hparams =>
          cases hfaulty with
          | param ho hfaulty =>
              obtain ⟨e, -, he⟩ := exists_mem_right hparams ho
              exact ih _ ho he hfaulty

/-- A rendering resolves, to a type of the registry that spells the expression. -/
theorem exists_run_resolve_rendering (h : c.view.Settled s.cells.size) {e : Expression}
    {text : String} (htext : Renders e text.toList) (strict : Bool) :
    ∃ t c', (resolve strict text).run c = .ok t c' ∧ c'.view.Settled s.cells.size ∧
      c.view.Extends c'.view ∧ Owned s c' t ∧ c'.store.Spells t e.display := by
  obtain ⟨hfollows, htight⟩ := htext.outline_follows strict
  have hends := resolve_spec h strict text
  cases hrun : (resolve strict text).run c with
  | ok t c' =>
      rw [Ends, hrun] at hends
      obtain ⟨n, hn, -⟩ := hends.named
      have hcanonical := hends.settled.canonical
      exact ⟨t, c', rfl, hends.settled, hends.extends_view, hcanonical.mem hn, spells_of_denotes
        hcanonical (Outline.faithful_ofText strict text) hfollows htight hends.denotes⟩
  | error err c' =>
      rw [Ends, hrun] at hends
      obtain ⟨o, ho, hfaulty, -⟩ := hends.exists_faulty
      obtain rfl := List.mem_singleton.1 ho
      exact absurd hfaulty (not_faulty_of_follows hfollows)

/-- After any run of a registry, every rendering of an expression resolves in either mode. The type
spells the expression from then on, with display names in the places of keys. It is the type of
another rendering, whenever this is resolved, exactly if the expressions are the same but for keys
in the places of display names. -/
theorem resolve_rendering {s : Store} {c : Catalog} (h : Reached s c) {e : Expression}
    {text : String} (htext : Renders e text.toList) (strict : Bool) :
    ∃ t c₁, (resolve strict text).run c = .ok t c₁ ∧ ∀ c₂, Later c₁ c₂ →
      c₂.store.Spells t e.display ∧
      ∀ e' text' strict', Renders e' text'.toList →
        ∃ t' c₃, (resolve strict' text').run c₂ = .ok t' c₃ ∧
          (t = t' ↔ e.display = e'.display) := by
  obtain ⟨t, c₁, hrun, hset, -, hown, hspells⟩ :=
    exists_run_resolve_rendering h.settled htext strict
  refine ⟨t, c₁, hrun, fun c₂ hlater => ?_⟩
  obtain ⟨hset₂, hext₂⟩ := hlater.settled hset
  refine ⟨spells_mono hspells hext₂, fun e' text' strict' htext' => ?_⟩
  obtain ⟨t', c₃, hrun', hset₃, hext₃, hown', hspells'⟩ :=
    exists_run_resolve_rendering hset₂ htext' strict'
  have hext := hext₂.trans hext₃
  have hlast := spells_mono hspells hext
  refine ⟨t', c₃, hrun', ?_, fun heq => ?_⟩
  · rintro rfl
    exact hlast.unique hspells'
  · have hown₃ : Owned s c₃ t := ⟨hown.1, Nat.lt_of_lt_of_le hown.2 hext.size⟩
    exact type_unique_of_spells hset₃.canonical hown₃ hown' hlast (heq ▸ hspells')

/-- `array < string >` and `Array<String>` resolve to one type, also in different modes. -/
theorem resolve_rendering_array :
    ∃ t c, (resolve true "array < string >").run (fresh {}) = .ok t c ∧
      ∃ c', (resolve false "Array<String>").run c = .ok t c' := by
  have gap : Blank [' '] := by decide
  have string : Renders (.node (.ofName "string" (by decide)) [])
      ([' '] ++ "string".toList ++ [' ']) := .plain gap gap
  have array : Renders (.node (.ofName "array" (by decide))
      [.node (.ofName "string" (by decide)) []]) "array < string >".toList :=
    .applied blank_nil gap blank_nil (List.cons_ne_nil _ _) (.cons string .nil)
  have string' : Renders (.node (.ofName "String" (by decide)) [])
      ([] ++ "String".toList ++ []) := .plain blank_nil blank_nil
  have array' : Renders (.node (.ofName "Array" (by decide))
      [.node (.ofName "String" (by decide)) []]) "Array<String>".toList :=
    .applied blank_nil blank_nil blank_nil (List.cons_ne_nil _ _) (.cons string' .nil)
  obtain ⟨t, c, hrun, hlater⟩ := resolve_rendering (s := {}) .refl array true
  obtain ⟨t', c', hrun', hiff⟩ := (hlater c .refl).2 _ _ false array'
  have heq : t = t' := hiff.2 (by
    simp only [Expression.display_node, List.map_cons, List.map_nil]
    rfl)
  subst heq
  exact ⟨t, c, hrun, c', hrun'⟩

end Catalog

end Nominal
