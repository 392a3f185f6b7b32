import RequestFlow.Number.Literal

/-!
# Arguments

The words of a command line. An option has a long name behind two dashes, and maybe a letter behind
one; its value follows an equals sign or is the next word. A word that starts with a dash is no
value, and two dashes alone end the options. No option may be given twice.

* `Invocation.parse?`: what a command line asks for.
-/

namespace RequestFlow

/-- What the program can be asked to do. -/
inductive Task where
  /-- Run a workflow of a document. -/
  | run (file workflow : String) (environment : Option String)
  /-- Run a request of a document over its own loop. -/
  | forEach (file request : String) (environment : Option String)
  /-- Check the workflows of a document. -/
  | validate (file : String)
  /-- Show a workflow of a document as directives. -/
  | render (file workflow : String)
  /-- List past runs. -/
  | history (limit : Nat) (workflow : Option String)
deriving DecidableEq, Repr

/-- A command line. -/
structure Invocation where
  historyPath : Option String
  task : Task
deriving DecidableEq, Repr

namespace Invocation

/-- The options. -/
inductive Key where
  | historyPath | workflow | environment | request | limit
deriving DecidableEq, Repr

/-- The long name of an option. -/
def Key.name : Key → String
  | historyPath => "history-path"
  | workflow => "workflow"
  | environment => "env"
  | request => "request"
  | limit => "limit"

/-- The options that a command takes, each with its letter if it has one. -/
abbrev Form := List (Key × Option Char)

/-- The option that may stand anywhere. -/
def everywhere : Form := [(.historyPath, none)]

/-- A value that may be the next word: one that starts with a dash may not. -/
def isValue (word : String) : Bool := word == "-" || word.toList.head? != some '-'

/-- The option that a word gives, with what stands behind its equals sign. -/
def optionOf (form : Form) (word : String) : Option (Key × Option String) :=
  let afterEquals (cs : List Char) : Option String :=
    match cs with
    | '=' :: value => some (String.ofList value)
    | _ => none
  match word.toList with
  | '-' :: '-' :: cs =>
    let name := String.ofList (cs.takeWhile (· != '='))
    (form.find? fun entry => entry.1.name == name).map fun entry =>
      (entry.1, afterEquals (cs.dropWhile (· != '=')))
  | '-' :: c :: cs =>
    (form.find? fun entry => entry.2 == some c).map fun entry =>
      (entry.1, (afterEquals cs).or (if cs.isEmpty then none else some (String.ofList cs)))
  | _ => none

/-- The options and the other words of a command. -/
def scan (form : Form) : List String → Option (List (Key × String) × List String)
  | [] => some ([], [])
  | word :: rest =>
    if word = "--" then some ([], rest)
    else if isValue word then
      (scan form rest).map fun (given, words) => (given, word :: words)
    else
      match optionOf form word, rest with
      | some (key, some value), rest =>
        (scan form rest).map fun (given, words) => ((key, value) :: given, words)
      | some (key, none), value :: rest =>
        if isValue value then
          (scan form rest).map fun (given, words) => ((key, value) :: given, words)
        else none
      | _, _ => none

/-- The options in front of the command, the command, and the words behind it. -/
def splitCommand : List String → Option (List (Key × String) × String × List String)
  | [] => none
  | word :: rest =>
    if isValue word then some ([], word, rest)
    else
      match optionOf everywhere word, rest with
      | some (key, some value), rest =>
        (splitCommand rest).map fun (given, command) => ((key, value) :: given, command)
      | some (key, none), value :: rest =>
        if isValue value then
          (splitCommand rest).map fun (given, command) => ((key, value) :: given, command)
        else none
      | _, _ => none

/-- No option is given twice. -/
def isOnce (given : List (Key × String)) : Bool := decide (given.map Prod.fst).Nodup

/-- The value of an option. -/
def value? (key : Key) (given : List (Key × String)) : Option String :=
  (given.find? fun entry => entry.1 == key).map Prod.snd

/-- A natural number of at most 64 bits, with or without a plus sign. -/
def number? (text : String) : Option Nat :=
  let cs := text.toList
  let digits := if cs.head? = some '+' then cs.tail else cs
  if digits.isEmpty || !digits.all Char.isDigit then none
  else (some (Number.digitsValue digits)).filter (· < Nat.pow 2 64)

/-- The options that a command takes besides the one that may stand anywhere. -/
def form? : String → Option Form
  | "run" => some [(.workflow, some 'w'), (.environment, some 'e')]
  | "for-each" => some [(.request, some 'r'), (.environment, some 'e')]
  | "validate" => some []
  | "show" => some [(.workflow, some 'w')]
  | "history" => some [(.limit, none), (.workflow, none)]
  | _ => none

/-- The one file that a command is about. -/
def file? : List String → Option String
  | [file] => if file = "" then none else some file
  | _ => none

/-- What a command asks for. -/
def task? (command : String) (given : List (Key × String)) (words : List String) : Option Task := do
  match command with
  | "run" => return .run (← file? words) (← value? .workflow given) (value? .environment given)
  | "for-each" =>
    return .forEach (← file? words) (← value? .request given) (value? .environment given)
  | "validate" => return .validate (← file? words)
  | "show" => return .render (← file? words) (← value? .workflow given)
  | "history" =>
    if !words.isEmpty then none
    let limit ← number? ((value? .limit given).getD "20")
    return .history limit (value? .workflow given)
  | _ => none

/-- What a command line asks for; none when it is misused. -/
def parse? (words : List String) : Option Invocation := do
  let (front, command, rest) ← splitCommand words
  let form ← form? command
  let (given, words) ← scan (everywhere ++ form) rest
  if !(isOnce front && isOnce given) then none
  if (front ++ given).contains (.historyPath, "") then none
  let historyPath := (value? .historyPath given).or (value? .historyPath front)
  return ⟨historyPath, ← task? command given words⟩

end Invocation

end RequestFlow
