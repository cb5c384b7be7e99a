import TextProviders.Number.Numeral

/-!
The options of the command line, and how arguments are read.

Every argument is first taken for an option or a plain argument, and then options are acted on in
order.  A long option may be shortened as long as it is clear which one is meant, and its value may
follow an equals sign.  Short options may share a dash.  What is a number or holds a space is plain,
and so is all that follows two dashes.  Arguments that fit nowhere are collected.
-/

namespace TextProviders.CommandLine

/-- The options. -/
inductive Flag where
  | help
  | sourceRoot
  | resourceRoot
  | output
  | verbose
  | manifest
  | workers
deriving DecidableEq, Repr

namespace Flag

/-- The long name of an option. -/
def long : Flag → String
  | help => "--help"
  | sourceRoot => "--source-root"
  | resourceRoot => "--resource-root"
  | output => "--output"
  | verbose => "--verbose"
  | manifest => "--manifest"
  | workers => "--workers"

/-- The letter of an option's short name, if it has one. -/
def letter? : Flag → Option Char
  | help => some 'h'
  | verbose => some 'v'
  | _ => none

/-- The short name of an option, if it has one. -/
def short? (f : Flag) : Option String :=
  f.letter?.map fun c => String.ofList ['-', c]

/-- Whether an option has a value.  Those with a short name have none. -/
def isValued : Flag → Bool
  | help | verbose => false
  | _ => true

/-- An option as messages name it. -/
def title (f : Flag) : String :=
  match f.short? with
  | some s => s ++ "/" ++ f.long
  | none => f.long

end Flag

/-- A refusal of arguments: the option it is about, if it is about one, and what is wrong. -/
structure Refusal where
  flag : Option Flag
  reason : String
deriving DecidableEq, Repr

/-- The words for a refusal. -/
def Refusal.message (r : Refusal) : String :=
  match r.flag with
  | some f => "argument " ++ f.title ++ ": " ++ r.reason
  | none => r.reason

/-! ## What arguments are taken for -/

/-- What an argument is taken for. -/
inductive Argument where
  | plain (text : String)
  /-- Two dashes, after which all arguments are plain. -/
  | dashes
  /-- An option, with the value or the further letters that stand in the same argument; the flag
  says that it is given by its letter. -/
  | option (f : Flag) (byLetter : Bool) (attached : Option (List Char))
  /-- What looks like an option and is none. -/
  | unknown (text : String)
deriving DecidableEq, Repr

/-- Whether an argument is a negative number. -/
def isNegativeNumber (s : List Char) : Bool :=
  let isNumeral (c : Char) : Bool := (Text.digitValue? c).isSome
  match if s.getLast? = some '\n' then s.dropLast else s with
  | '-' :: rest =>
    let whole := rest.takeWhile isNumeral
    match rest.drop whole.length with
    | [] => !whole.isEmpty
    | '.' :: part => !part.isEmpty && part.all isNumeral
    | _ => false
  | _ => false

/-- What stands before and after the first equals sign; nothing stands after it where there is
none. -/
def splitEquals (s : List Char) : List Char × Option (List Char) :=
  let before := s.takeWhile (· ≠ '=')
  match s.drop before.length with
  | [] => (before, none)
  | _ :: after => (before, some after)

/-- The options that an argument can stand for, being the beginning of their names. -/
def candidates (flags : List Flag) (s : List Char) : List Argument × List String :=
  let (name, value) := splitEquals s
  match s with
  | '-' :: '-' :: _ =>
    let fits := flags.filter fun f => name.isPrefixOf f.long.toList
    (fits.map fun f => .option f false value, fits.map Flag.long)
  | '-' :: letter :: more =>
    let fits := flags.filter fun f => f.letter? = some letter
    (fits.map fun f => .option f true (some more), fits.filterMap Flag.short?)
  | _ => ([], [])

/-- The option that is named exactly, with a value after an equals sign or without. -/
def exactly? (flags : List Flag) (s : List Char) : Option Argument :=
  let named (name : List Char) (value : Option (List Char)) : Option Argument :=
    flags.findSome? fun f =>
      if f.long.toList = name then some (.option f false value)
      else if f.letter?.any fun c => ['-', c] = name then some (.option f true value)
      else none
  let (name, value) := splitEquals s
  named s none <|> (if value.isSome then named name value else none)

/-- What an argument is taken for, among some options. -/
def classify (flags : List Flag) (text : String) : Except Refusal Argument :=
  let s := text.toList
  if s.head? ≠ some '-' || s.length = 1 then .ok (.plain text)
  else
    match exactly? flags s with
    | some a => .ok a
    | none =>
      match candidates flags s with
      | ([a], _) => .ok a
      | ([], _) =>
        if isNegativeNumber s || s.contains ' ' then .ok (.plain text) else .ok (.unknown text)
      | (_, names) =>
        .error ⟨none, "ambiguous option: " ++ text ++ " could match " ++ ", ".intercalate names⟩

/-- What arguments are taken for. -/
def classifyAll (flags : List Flag) : List String → Except Refusal (List (Argument × String))
  | [] => .ok []
  | text :: rest =>
    if text = "--" then .ok ((.dashes, text) :: rest.map fun t => (.plain t, t))
    else
      match classify flags text with
      | .error r => .error r
      | .ok a => (classifyAll flags rest).map ((a, text) :: ·)

/-! ## Acting on arguments -/

/-- The options that letters sharing a dash stand for, after a first one. -/
def cluster (flags : List Flag) (f : Flag) : List Char → Except Refusal (List Flag)
  | [] => .ok [f]
  | c :: rest =>
    match flags.find? fun g => g.letter? = some c with
    | none => .error ⟨f, "ignored explicit argument " ++ Text.quoted (String.ofList (c :: rest))⟩
    | some g => (cluster flags g rest).map (f :: ·)

/-- What ends the reading of arguments early. -/
inductive Stop where
  | refused (r : Refusal)
  /-- Help is asked for. -/
  | help
deriving DecidableEq, Repr

/-- What reading arguments leads to: a state, the arguments that fit nowhere, and the arguments from
the first plain one on, if those are kept for a command. -/
structure Walk (σ : Type) where
  state : σ
  extras : List String := []
  command : Option (List String) := none

/-- Applies options without a value in order. -/
def applyAll {σ : Type} (act : Flag → String → σ → Except Stop σ) :
    List Flag → σ → Except Stop σ
  | [], state => .ok state
  | f :: rest, state =>
    match act f "" state with
    | .error e => .error e
    | .ok state => applyAll act rest state

/-- Acts on arguments in order.  The first plain argument starts a command if there are commands;
two dashes count as the start where a plain argument follows. -/
def walk {σ : Type} (flags : List Flag) (hasCommands : Bool)
    (act : Flag → String → σ → Except Stop σ) :
    List (Argument × String) → σ → Except Stop (Walk σ)
  | [], state => .ok { state }
  | (.plain _, text) :: rest, state =>
    if hasCommands then .ok { state, command := some (text :: rest.map (·.2)) }
    else keep text (walk flags hasCommands act rest state)
  | (.dashes, text) :: rest, state =>
    if hasCommands && !rest.isEmpty then .ok { state, command := some (text :: rest.map (·.2)) }
    else keep text (walk flags hasCommands act rest state)
  | (.unknown _, text) :: rest, state => keep text (walk flags hasCommands act rest state)
  | (.option f byLetter attached, _) :: rest, state =>
    if f.isValued then
      match attached with
      | some value =>
        match act f (String.ofList value) state with
        | .error e => .error e
        | .ok state => walk flags hasCommands act rest state
      | none =>
        match rest with
        | (.plain value, _) :: rest =>
          match act f value state with
          | .error e => .error e
          | .ok state => walk flags hasCommands act rest state
        | _ => .error (.refused ⟨f, "expected one argument"⟩)
    else
      match attached with
      | none =>
        match act f "" state with
        | .error e => .error e
        | .ok state => walk flags hasCommands act rest state
      | some letters =>
        if byLetter && !letters.isEmpty then
          match cluster flags f letters with
          | .error r => .error (.refused r)
          | .ok fs =>
            match applyAll act fs state with
            | .error e => .error e
            | .ok state => walk flags hasCommands act rest state
        else
          .error (.refused ⟨f, "ignored explicit argument " ++ Text.quoted (String.ofList letters)⟩)
where
  /-- The walk with an argument that fits nowhere put first. -/
  keep (text : String) (w : Except Stop (Walk σ)) : Except Stop (Walk σ) :=
    w.map fun w => { w with extras := text :: w.extras }

/-- Reads arguments with the given options. -/
def readArguments {σ : Type} (flags : List Flag) (hasCommands : Bool)
    (act : Flag → String → σ → Except Stop σ) (arguments : List String) (state : σ) :
    Except Stop (Walk σ) :=
  match classifyAll flags arguments with
  | .error r => .error (.refused r)
  | .ok classified => walk flags hasCommands act classified state

/-! ## What the options of the program say -/

/-- A command with its own options. -/
inductive Command where
  | generate
  | plan
  | scan
deriving DecidableEq, Repr

namespace Command

/-- The commands in the order in which they are listed. -/
def all : List Command := [generate, plan, scan]

/-- The word for a command. -/
def word : Command → String
  | generate => "generate"
  | plan => "plan"
  | scan => "scan"

/-- The options of a command. -/
def flags : Command → List Flag
  | generate => [.help, .manifest, .workers]
  | plan => [.help, .manifest]
  | scan => [.help]

end Command

/-- The options in front of a command. -/
def generalFlags : List Flag := [.help, .sourceRoot, .resourceRoot, .output, .verbose]

/-- What the options say.  A directory or a number is missing where two dashes stand for it. -/
structure Settings where
  sources : List (Option String) := []
  resources : List (Option String) := []
  output : String := ""
  verbose : Bool := false
  manifest : String := ""
  workers : Option Int := some 1
deriving DecidableEq, Repr

/-- The value of an option; two dashes are none. -/
def given? (value : String) : Option String :=
  if value = "--" then none else some value

/-- Acts on one option. -/
def Settings.act (f : Flag) (value : String) (s : Settings) : Except Stop Settings :=
  match f with
  | .help => .error .help
  | .sourceRoot => .ok { s with sources := s.sources ++ [given? value] }
  | .resourceRoot => .ok { s with resources := s.resources ++ [given? value] }
  | .output => .ok { s with output := (given? value).getD "" }
  | .verbose => .ok { s with verbose := true }
  | .manifest => .ok { s with manifest := (given? value).getD "" }
  | .workers =>
    match (given? value).mapM fun text => Numeral.readInteger 10 (Text.codes text.toList) with
    | .ok n => .ok { s with workers := n }
    | .error _ => .error (.refused ⟨f, "invalid int value: " ++ Text.quoted value⟩)

/-- What arguments ask for. -/
inductive Invocation where
  /-- A command, or nothing, with what the options say. -/
  | run (command : Option Command) (s : Settings)
  /-- The help of a command, or of the program. -/
  | help (command : Option Command)
  /-- The arguments are refused, by a command or by the program. -/
  | refused (command : Option Command) (r : Refusal)
deriving DecidableEq, Repr

/-- The refusal of a word that is no command. -/
def noCommand (word : String) : Refusal :=
  ⟨none, "argument command: invalid choice: " ++ Text.quoted word ++ " (choose from " ++
    ", ".intercalate (Command.all.map fun c => Text.quoted c.word) ++ ")"⟩

/-- The refusal of arguments that fit nowhere. -/
def unrecognized (extras : List String) : Refusal :=
  ⟨none, "unrecognized arguments: " ++ " ".intercalate extras⟩

/-- What stopped the reading of a command's or the program's options. -/
def stopped (command : Option Command) : Stop → Invocation
  | .refused r => .refused command r
  | .help => .help command

/-- What arguments ask for; those that fit nowhere are refused last. -/
def parse (arguments : List String) : Invocation :=
  let finish (command : Option Command) (s : Settings) (extras : List String) : Invocation :=
    if extras.isEmpty then .run command s else .refused none (unrecognized extras)
  match readArguments generalFlags true Settings.act arguments {} with
  | .error e => stopped none e
  | .ok w =>
    match w.command with
    | none => finish none w.state w.extras
    | some [] => finish none w.state w.extras
    | some (word :: rest) =>
      match Command.all.find? fun c => c.word = word with
      | none => .refused none (noCommand word)
      | some c =>
        match readArguments c.flags false Settings.act rest w.state with
        | .error e => stopped (some c) e
        | .ok v => finish (some c) v.state (w.extras ++ v.extras)

end TextProviders.CommandLine
