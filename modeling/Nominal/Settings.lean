/-!
# Settings and the event log

The options that the tables of a registry share, and the log they write. A table reports an event at
a level; whether the line is shown, and in which form, is up to the settings. The level of the
settings never changes what an operation does.
-/

namespace Nominal

/-- The levels of the log: a higher level shows more. Any integer may stand for a level. -/
abbrev Level := Int

namespace Level

/-- Nothing is shown. -/
def silent : Level := 0

/-- Errors are shown. -/
def error : Level := 3

/-- Warnings are shown as well. -/
def warning : Level := 6

/-- Registrations and progress are shown as well. -/
def info : Level := 10

/-- Every creation of a type is shown as well. -/
def debug : Level := 30

/-- The tag of a level that has one. -/
def tag? (l : Level) : Option String :=
  if l = error then some "ERROR"
  else if l = warning then some "WARNING"
  else if l = info then some "INFO"
  else if l = debug then some "DEBUG"
  else none

end Level

/-- Options shared by the tables of a registry. -/
structure Settings where
  /-- The level up to which the log is shown. -/
  level : Level := Level.warning
  /-- Each line of the log starts with the time and the tag of its level. -/
  rich : Bool := false
  /-- Malformed references are refused; otherwise they are read as well as possible. -/
  strict : Bool := true
  deriving DecidableEq, Repr

/-- A change of some of the options. -/
structure Settings.Change where
  /-- The new level, if it changes. -/
  level : Option Level := none
  /-- The new form of the log, if it changes. -/
  rich : Option Bool := none
  /-- The new treatment of malformed references, if it changes. -/
  strict : Option Bool := none
  deriving DecidableEq, Repr

/-- The settings after a change. -/
def Settings.change (s : Settings) (c : Settings.Change) : Settings :=
  { level := c.level.getD s.level, rich := c.rich.getD s.rich, strict := c.strict.getD s.strict }

/-- What a message adds to the log, the line's end included: nothing if its level is above the
settings' level. -/
def Settings.line (s : Settings) (clock : String) (level : Level) (message : String) : String :=
  if s.level < level then ""
  else
    let start := match s.rich, level.tag? with
      | true, some tag => clock ++ " [" ++ tag ++ "] "
      | _, _ => ""
    start ++ message ++ "\n"

/-! ### Events -/

/-- The tables that report events. -/
inductive Component where
  /-- The table of names. -/
  | names
  /-- The tree of parameterized types. -/
  | interner
  /-- The reader of textual references. -/
  | reader
  /-- The bindings of values. -/
  | cache
  /-- The registry itself. -/
  | registry
  deriving DecidableEq, Repr

/-- The name of a table in its events. -/
def Component.name : Component → String
  | names => "names"
  | interner => "interner"
  | reader => "parser"
  | cache => "cache"
  | registry => "registry"

/-- Something that a table reports. -/
structure Event where
  /-- The table that reports it. -/
  source : Component
  /-- Its level. -/
  level : Level
  /-- Its wording. -/
  wording : String
  deriving DecidableEq, Repr

/-- What an event says in the log: the table that reports it, then the wording. -/
def eventMessage (source wording : String) : String :=
  source ++ ": " ++ wording

/-- An event as a message of the log. -/
def Event.message (e : Event) : String :=
  eventMessage e.source.name e.wording

/-- The settings of each table of a registry. -/
structure Channels where
  /-- Settings of the table of names. -/
  names : Settings := {}
  /-- Settings of the tree of parameterized types. -/
  interner : Settings := {}
  /-- Settings of the reader of textual references. -/
  reader : Settings := {}
  /-- Settings of the bindings of values. -/
  cache : Settings := {}
  /-- Settings of the registry itself. -/
  registry : Settings := {}
  deriving DecidableEq, Repr

namespace Channels

/-- One set of settings for all tables. -/
def uniform (s : Settings) : Channels := ⟨s, s, s, s, s⟩

/-- The settings that hold for the events of a table. -/
def settingsOf (c : Channels) : Component → Settings
  | .names => c.names
  | .interner => c.interner
  | .reader => c.reader
  | .cache => c.cache
  | .registry => c.registry

/-- What an event adds to the log. -/
def line (c : Channels) (clock : String) (e : Event) : String :=
  (c.settingsOf e.source).line clock e.level e.message

/-- What a run of events adds to the log. -/
def log (c : Channels) (clock : String) (events : List Event) : String :=
  String.join (events.map (c.line clock))

end Channels

end Nominal
