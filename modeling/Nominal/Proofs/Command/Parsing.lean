import Nominal.Command
import Nominal.Proofs.Catalog.Meaning
import Nominal.Proofs.World.Parsing

/-!
# References on the command line

References are handled in order in one registry, each in what the ones before it left there. Every
one of them is resolved, to a type that has a text, or refused for a reported cause; there is no
third way for it to end, so nothing keeps the references after it from being handled. The verdicts
are a matter of the catalog alone. How much of the log is shown, and in which form, comes in where
they are printed: the output and the exit tell the verdicts alone, and a refusal is printed at every
level.

## Main results

* `exists_judged`: each of some references has a verdict.
* `parseAll_of_judged`: the verdicts are what is printed.
* `parse_prints_verdicts`: the whole request, for all settings of the log at once.
-/

namespace Nominal.Command

open Catalog (fresh)

/-! ### Verdicts -/

/-- What became of a reference. -/
structure Verdict where
  /-- The reference. -/
  ref : String
  /-- The text of its type, or the cause for which it was refused. -/
  outcome : Except Error String
  /-- The events on the way. -/
  events : List Event

namespace Verdict

/-- The line of a reference in the output, which a refused one does not have. -/
def shownLine? (v : Verdict) : Option String :=
  match v.outcome with
  | .ok text => some (line (v.ref ++ " -> " ++ text))
  | .error _ => none

/-- The line for a refusal. The level up to which the log is shown has no part in it. -/
def complaint (rich : Bool) (clock : String) (v : Verdict) : String :=
  match v.outcome with
  | .ok _ => ""
  | .error e => line ((if rich then clock ++ " [ERROR] " else "") ++ e.report.format)

/-- The events on the way to a verdict, as far as they are shown, and the line for a refusal. -/
def report (o : Options) (clock : String) (v : Verdict) : String :=
  (Channels.uniform o.settings).log clock v.events ++ v.complaint o.log clock

end Verdict

variable {c c' : Catalog} {w : World} {reg : Registry} {o : Options} {v : Verdict}
  {verdicts : List Verdict} {strict : Bool}

/-- A reference is resolved in a catalog, or refused. The events are handed over. -/
inductive Gives (strict : Bool) (c : Catalog) : Verdict → Catalog → Prop
  | resolved {c' : Catalog} {ref text : String} {t : TypeId} :
      (Catalog.resolve strict ref).run c = .ok t c' → c'.store.text t = .ok text →
      Gives strict c ⟨ref, .ok text, c'.events.toList⟩ { c' with events := #[] }
  | refused {c' : Catalog} {ref : String} {e : Error} :
      (Catalog.resolve strict ref).run c = .error (.refused e) c' →
      Gives strict c ⟨ref, .error e, c'.events.toList⟩ { c' with events := #[] }

/-- References are resolved in order in one catalog, whether or not the ones before them were
refused. -/
inductive Judged (strict : Bool) : Catalog → List Verdict → Catalog → Prop
  | nil (c : Catalog) : Judged strict c [] c
  | cons {c c₁ c' : Catalog} {v : Verdict} {verdicts : List Verdict} :
      Gives strict c v c₁ → Judged strict c₁ verdicts c' → Judged strict c (v :: verdicts) c'

/-- Where all types were made by creation, a reference has a verdict, and all types that there are
afterwards were made so as well. -/
theorem exists_gives (h : c.view.Sound) (strict : Bool) (ref : String) :
    ∃ v c', v.ref = ref ∧ Gives strict c v c' ∧ c'.view.Sound := by
  have hsound := (Catalog.advancing_resolve strict ref c h).sound
  cases hrun : (Catalog.resolve strict ref).run c with
  | ok t c' =>
    have hresolves := (Catalog.ends_resolveOutline h _).of_run_ok hrun
    obtain ⟨text, htext⟩ := Catalog.exists_text hresolves.advances.sound.minted hresolves.live
    rw [Catalog.final_of_run hrun] at hsound
    exact ⟨_, _, rfl, .resolved hrun htext, hsound⟩
  | error e c' =>
    obtain ⟨fault, rfl, -⟩ := Catalog.exists_bears_of_run_error h hrun
    rw [Catalog.final, hrun] at hsound
    exact ⟨_, _, rfl, .refused hrun, hsound⟩

theorem exists_judged (h : c.view.Sound) (strict : Bool) (refs : List String) :
    ∃ verdicts c', verdicts.map Verdict.ref = refs ∧ Judged strict c verdicts c' := by
  induction refs generalizing c with
  | nil => exact ⟨[], c, rfl, .nil c⟩
  | cons ref refs ih =>
    obtain ⟨v, c₁, rfl, hgives, hsound⟩ := exists_gives h strict ref
    obtain ⟨verdicts, c', rfl, hjudged⟩ := ih hsound
    exact ⟨v :: verdicts, c', rfl, .cons hgives hjudged⟩

/-! ### What is printed -/

/-- What is printed for a verdict. -/
def Verdict.output (o : Options) (clock : String) (v : Verdict) : Output where
  exit := if v.outcome.isOk then 0 else 1
  stdout := v.shownLine?.getD ""
  stderr := v.report o clock

/-- What is printed for some verdicts. -/
def printed (o : Options) (clock : String) (verdicts : List Verdict) : Output where
  exit := if verdicts.all (·.outcome.isOk) then 0 else 1
  stdout := String.join (verdicts.filterMap Verdict.shownLine?)
  stderr := String.join (verdicts.map (Verdict.report o clock))

/-- An error is shown at the level of any options. -/
theorem errorLine_settings (o : Options) (clock : String) (e : Error) :
    errorLine o.settings clock e =
      line ((if o.log then clock ++ " [ERROR] " else "") ++ e.report.format) := by
  have hlevel : ¬ o.settings.level < Level.error := by
    simp only [Options.settings]
    split
    · decide
    · split <;> decide
  have htag : Level.error.tag? = some "ERROR" := rfl
  rw [errorLine, Settings.line, if_neg hlevel, htag]
  cases hlog : o.log <;> simp [Options.settings, hlog, line, String.append_assoc]

theorem takeLog_withCatalog (settings : Settings) (clock : String) (h : w.events = #[])
    (c : Catalog) : takeLog settings clock (w.withCatalog 0 c) =
      ((Channels.uniform settings).log clock c.events.toList,
        w.withCatalog 0 { c with events := #[] }) := by
  have hsettings : ∀ source, (Channels.uniform settings).settingsOf source = settings := by
    intro source
    cases source <;> rfl
  have hline : (Channels.uniform settings).line clock =
      fun e => settings.line clock e.level e.message := by
    funext e
    rw [Channels.line, hsettings]
  simp [takeLog, World.withCatalog, Channels.log, hline, h, Function.comp_def]

/-- What is printed for one more verdict comes first. -/
theorem printed_cons (o : Options) (clock : String) (v : Verdict) (verdicts : List Verdict) :
    printed o clock (v :: verdicts) =
      (v.output o clock).followedBy (printed o clock verdicts) := by
  have hexit : ∀ a b : Bool, (if a && b then 0 else 1) =
      max (if a then 0 else 1) (if b then 0 else 1) := by decide
  rw [printed, List.all_cons, hexit, List.filterMap_cons, List.map_cons, String.join_cons]
  cases hline : v.shownLine? with
  | none => simp [printed, Verdict.output, Output.followedBy, hline]
  | some text => simp [printed, Verdict.output, Output.followedBy, hline, String.join_cons]

/-- A reference is resolved in the catalog of the registry. -/
theorem run_resolve (h : w.registries[0]? = some reg) (ref : String) :
    (resolve ref).run w =
      w.embed 0 ((Catalog.resolve reg.channels.reader.strict ref).run (w.catalog reg)) :=
  World.run_parse h ref

/-- A reference is handled as the catalog of the registry has it. -/
theorem handle_of_gives (o : Options) (clock : String) (hgives : Gives strict c v c')
    (h : w.registries[0]? = some reg) (hevents : w.events = #[])
    (hcatalog : w.catalog reg = c) (hstrict : reg.channels.reader.strict = strict) :
    handle o.settings clock w v.ref = (v.output o clock, w.withCatalog 0 c') := by
  subst hcatalog hstrict
  cases hgives with
  | @resolved c' ref text t hrun htext =>
    have htype := run_resolve h ref
    rw [hrun, World.embed] at htype
    have hstore : (w.withCatalog 0 { c' with events := #[] }).store.text t = .ok text := htext
    rw [handle, htype]
    dsimp only
    rw [takeLog_withCatalog _ _ hevents]
    dsimp only
    rw [hstore]
    simp [Verdict.output, success, Verdict.shownLine?, Verdict.report, Verdict.complaint,
      Except.isOk, Except.toBool]
  | @refused c' ref e hrun =>
    have htype := run_resolve h ref
    rw [hrun, World.embed] at htype
    rw [handle, htype]
    dsimp only
    rw [takeLog_withCatalog _ _ hevents, failure, errorLine_settings]
    simp [Verdict.output, Verdict.shownLine?, Verdict.report, Verdict.complaint, Except.isOk,
      Except.toBool]

/-- The verdicts on references are what is printed for them, and the registry keeps what they left
in its catalog. Nothing keeps the run from going on to the last one. -/
theorem parseAll_of_judged (o : Options) (clock : String) (hjudged : Judged strict c verdicts c')
    (h : w.registries[0]? = some reg) (hevents : w.events = #[]) (hcatalog : w.catalog reg = c)
    (hstrict : reg.channels.reader.strict = strict) :
    ∃ w' reg', parseAll o.settings clock w (verdicts.map Verdict.ref) =
        (printed o clock verdicts, some w') ∧
      w'.registries[0]? = some reg' ∧ w'.catalog reg' = c' := by
  induction hjudged generalizing w reg with
  | nil c => exact ⟨w, reg, rfl, h, hcatalog⟩
  | @cons c c₁ c' v verdicts hgives _ ih =>
    have hhanded : c₁.events = #[] := by
      cases hgives <;> rfl
    obtain ⟨reg₁, hreg₁, hcatalog₁, hchannels⟩ := World.catalog_withCatalog h c₁
    have hevents₁ : (w.withCatalog 0 c₁).events = #[] := by
      simp [World.withCatalog, hevents, hhanded]
    have hcatalog₁' : (w.withCatalog 0 c₁).catalog reg₁ = c₁ := by
      rw [hcatalog₁, ← hhanded]
    obtain ⟨w', reg', hprinted, hreg', hcatalog'⟩ :=
      ih hreg₁ hevents₁ hcatalog₁' (hchannels ▸ hstrict)
    refine ⟨w', reg', ?_, hreg', hcatalog'⟩
    have hgoes : ¬(v.output o clock).escaped.isSome = true := Bool.false_ne_true
    rw [List.map_cons, parseAll, handle_of_gives o clock hgives h hevents hcatalog hstrict]
    dsimp only
    rw [if_neg hgoes, hprinted, printed_cons]

/-! ### The request -/

/-- A request starts with a fresh registry; its events so far are handed over before the first
reference. -/
theorem exists_takeLog_start (settings : Settings) (clock : String) : ∃ w reg,
    takeLog settings clock (start settings) =
      ((Channels.uniform settings).log clock (fresh {}).events.toList, w) ∧
    w.registries[0]? = some reg ∧ w.events = #[] ∧
    w.catalog reg = { fresh {} with events := #[] } ∧ reg.channels = .uniform settings := by
  obtain ⟨w₀, hw₀⟩ : ∃ w₀ : World, w₀ =
      { registries := ({} : World).registries.push { channels := .uniform settings } } :=
    ⟨_, rfl⟩
  have hfinal : start settings = World.final (World.addRegistry (.uniform settings)) {} := by
    rw [start, World.final]
    cases (World.addRegistry (.uniform settings)).run {} <;> rfl
  have hstart : start settings = w₀.withCatalog 0 (fresh {}) := by
    have hsize : ({} : World).registries.size = 0 := rfl
    have hstore : ({} : World).store = {} := rfl
    rw [hfinal, World.final_addRegistry_eq, hsize, hstore, hw₀]
  rw [hstart]
  -- The catalog of a fresh registry is a closed term, and large: from here on it is any catalog.
  generalize fresh {} = c
  have hnew : w₀.registries[0]? = some { channels := .uniform settings } := hw₀ ▸ rfl
  have hevents : w₀.events = #[] := hw₀ ▸ rfl
  obtain ⟨reg, hreg, hcatalog, hchannels⟩ :=
    World.catalog_withCatalog hnew { c with events := #[] }
  refine ⟨w₀.withCatalog 0 { c with events := #[] }, reg,
    takeLog_withCatalog settings clock hevents c, hreg, ?_, hcatalog, hchannels⟩
  simp [World.withCatalog, hevents]

/-- Each of the references given to a request has a verdict: the text of the type that it is
resolved to, or the cause for which it is refused, in the order of the references and in one
registry. No failure escapes. Whatever the verbosity and the form of the log, the output is the
entries of the references that were resolved, each exactly once, and the exit is zero if this is all
of them, and one otherwise. On the error output stand the events, as far as they are shown, and
after those on the way to it each refusal, also where nothing else is shown. -/
theorem parse_prints_verdicts (lenient : Bool) (refs : List String) : ∃ verdicts c,
    verdicts.map Verdict.ref = refs ∧
    Judged (!lenient) { fresh {} with events := #[] } verdicts c ∧
    ∀ (verbosity : Int) (log : Bool) (clock : String),
      let o : Options := ⟨verbosity, log, lenient⟩
      let out := parse o.settings clock refs
      out.escaped = none ∧
      out.stdout = String.join (verdicts.filterMap Verdict.shownLine?) ∧
      out.exit = (if verdicts.all (·.outcome.isOk) then 0 else 1) ∧
      out.stderr = (Channels.uniform o.settings).log clock (fresh {}).events.toList ++
        String.join (verdicts.map (Verdict.report o clock)) ++
        o.settings.line clock Level.info (toString c.names.size ++ " named type(s), " ++
          toString c.interner.count ++ " complex type(s)") := by
  have hsound : ({ fresh {} with events := #[] } : Catalog).view.Sound := by
    rw [Catalog.view_publish]
    exact Catalog.sound_fresh
  have hstart := exists_takeLog_start
  -- As above, the fresh catalog is from here on any catalog.
  generalize fresh {} = c₀ at hsound hstart ⊢
  obtain ⟨verdicts, c, rfl, hjudged⟩ := exists_judged hsound (!lenient) refs
  refine ⟨verdicts, c, rfl, hjudged, fun verbosity log clock => ?_⟩
  dsimp only
  generalize ho : (⟨verbosity, log, lenient⟩ : Options) = o
  obtain ⟨w, reg, hlog, hreg, hevents, hcatalog, hchannels⟩ := hstart o.settings clock
  have hstrict : reg.channels.reader.strict = !lenient := by
    rw [hchannels, ← ho]
    rfl
  obtain ⟨w', reg', hparse, hreg', hcatalog'⟩ :=
    parseAll_of_judged o clock hjudged hreg hevents hcatalog hstrict
  have hsummary : summary o.settings clock w' = o.settings.line clock Level.info
      (toString c.names.size ++ " named type(s), " ++ toString c.interner.count ++
        " complex type(s)") := by
    rw [summary, hreg', ← hcatalog']
    rfl
  have hout : parse o.settings clock (verdicts.map Verdict.ref) =
      { printed o clock verdicts with
        stderr := (Channels.uniform o.settings).log clock c₀.events.toList ++
          (printed o clock verdicts).stderr ++ summary o.settings clock w' } := by
    rw [parse, hlog]
    dsimp only
    rw [hparse]
    rfl
  rw [hout, hsummary]
  exact ⟨rfl, rfl, rfl, rfl⟩

/-- A reference that is refused is told from the two around it, whatever else is shown. -/
example : (parse ({} : Options).settings "" ["Map<b>", "Map<", "b"]).stdout =
      "Map<b> -> Map<b>\nb -> b\n" ∧
    (parse ({} : Options).settings "" ["Map<b>", "Map<", "b"]).stderr =
      "error: [PAR-0030] unclosed '<' in type name\n    Map<\n       ^\n" ∧
    ∀ verbosity ∈ [(0 : Int), 1, 3], ∀ log : Bool,
      (parse (⟨verbosity, log, false⟩ : Options).settings "" ["Map<b>", "Map<", "b"]).exit = 1 := by
  decide +kernel

end Nominal.Command
