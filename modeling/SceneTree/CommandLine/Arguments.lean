import SceneTree.JsonText.Layout
import SceneTree.Number.Numeral

/-!
# Arguments of the command

The command takes an input and an output, and between, before and after them the options `-h` or `--help`, `--indent`
with a number, and `--verbose`. A long option may be cut short as long as only one begins so, and its value may follow
an equals sign; `-h` may be repeated in one word, as `-hh` or `-h=h`. After `--` nothing is an option. What looks like
a negative number or holds a space is not an option either, unless it begins like one.
-/

namespace SceneTree.CommandLine

/-- An option. -/
inductive Flag where
  | help | indent | verbose
  deriving DecidableEq, Repr

namespace Flag

/-- The options by their long names. -/
def longNames : List (String × Flag) := [("--help", .help), ("--indent", .indent), ("--verbose", .verbose)]

/-- The options whose long names begin with a text. -/
def startingWith (text : List Char) : List Flag :=
  (longNames.filter fun (name, _) => text.isPrefixOf name.toList).map (·.2)

end Flag

/-- What an argument is by itself: something to go by its position, the mark that ends the options, an option with or
without a value, a short option with the letters run on to it, or an option that there is not. -/
inductive Word where
  | positional (text : String)
  | endOfOptions
  | long (flag : Flag) (value : Option (List Char))
  | cluster (letters : List Char)
  | unknown
  deriving DecidableEq, Repr

/-- Whether a text is a minus sign and a decimal number, perhaps before a line break. -/
def isNegativeNumber : List Char → Bool
  | '-' :: rest =>
    let isDecimal (c : Char) : Bool := (Text.decimalValue? c).isSome
    let body := if rest.getLast? = some '\n' then rest.dropLast else rest
    let fraction := body.dropWhile isDecimal
    match fraction with
    | [] => !body.isEmpty
    | '.' :: digits => !digits.isEmpty && digits.all isDecimal
    | _ => false
  | _ => false

/-- The parts of a text before and after its first equals sign, if there is one. -/
def splitAtEquals (text : List Char) : List Char × Option (List Char) :=
  match text.dropWhile (· != '=') with
  | [] => (text, none)
  | _ :: value => (text.takeWhile (· != '='), some value)

/-- What an argument is that no option begins like. -/
def otherWord (text : List Char) : Word :=
  if isNegativeNumber text || text.contains ' ' then .positional (String.ofList text) else .unknown

/-- What an argument before the end of the options is; none if several options begin like it. -/
def classify? (text : List Char) : Option Word :=
  match text with
  | ['-', '-'] => some .endOfOptions
  | '-' :: '-' :: _ =>
    let (name, value) := splitAtEquals text
    match Flag.longNames.lookup (String.ofList name) with
    | some flag => some (.long flag value)
    | none =>
      match Flag.startingWith name with
      | [flag] => some (.long flag value)
      | [] => some (otherWord text)
      | _ => none
  | ['-', 'h'] => some (.long .help none)
  | '-' :: 'h' :: '=' :: letters | '-' :: 'h' :: letters => some (.cluster letters)
  | ['-'] => some (.positional "-")
  | '-' :: _ => some (otherWord text)
  | _ => some (.positional (String.ofList text))

/-- What some arguments are; none if one of them may be several options. -/
def classifyAll? : List String → Option (List Word)
  | [] => some []
  | text :: rest => do
    match ← classify? text.toList with
    | .endOfOptions => return .endOfOptions :: rest.map .positional
    | word => return word :: (← classifyAll? rest)

/-- What the command is asked to do. The output or the layout is missing if `--`, which ends the options, stood in its
place. -/
structure Arguments where
  input : String
  output : Option String
  layout : Option JsonText.Layout
  verbose : Bool
  deriving DecidableEq, Repr

/-- What arguments come to. -/
inductive Request where
  | run (arguments : Arguments)
  | help
  | misuse
  deriving DecidableEq, Repr

/-- What was gathered from the arguments so far: the positional ones in order, the options, and whether anything was
left over. -/
structure Gathered where
  positionals : List (Option String)
  layout : Option JsonText.Layout
  verbose : Bool
  leftOver : Bool

/-- The words of one positional argument at the beginning of some words, with the ends of options around it, and the
words after it. -/
def takePositional? (words : List Word) : Option (List Word × List Word) :=
  let isEnd (w : Word) : Bool := w == .endOfOptions
  match words.dropWhile isEnd with
  | .positional text :: rest =>
    some (words.takeWhile isEnd ++ .positional text :: rest.takeWhile isEnd, rest.dropWhile isEnd)
  | _ => none

/-- The argument that the words of a positional argument stand for: the first `--` among them goes away, and what is
left must be a single word. -/
def positionalText (words : List Word) : Option String :=
  let texts := words.map fun w => match w with
    | .positional text => text
    | _ => "--"
  match texts.erase "--" with
  | [text] => some text
  | _ => none

/-- Takes as many positional arguments as are wanted and stand at the beginning of some words. -/
def takePositionals : (wanted : Nat) → List Word → List (Option String) × List Word
  | 0, words => ([], words)
  | wanted + 1, words =>
    match takePositional? words with
    | some (own, rest) =>
      let (texts, rest) := takePositionals wanted rest
      (positionalText own :: texts, rest)
    | none => ([], words)

/-- The layout for the text of an indentation. -/
def layoutOf (indentation : List Char) : Except Request (Option JsonText.Layout) :=
  if indentation = ['-', '-'] then .ok none
  else
    match Numeral.readInteger indentation with
    | .ok width => .ok (some (.indented width))
    | .error _ => .error .misuse

/-- What letters run on to `-h` come to: the only short option is `-h`, so that they must all repeat it. -/
def requestOfCluster (letters : List Char) : Request :=
  if !letters.isEmpty && letters.all (· == 'h') then .help else .misuse

/-- The words up to the first option, and those from it on. -/
def untilOption (words : List Word) : List Word × List Word :=
  let isPlain (w : Word) : Bool := match w with
    | .positional _ | .endOfOptions => true
    | _ => false
  (words.takeWhile isPlain, words.dropWhile isPlain)

/-- Takes the option at the beginning of some words, with its value: what is gathered then, and the words after it. -/
def Gathered.takeOption (g : Gathered) : List Word → Except Request (Gathered × List Word)
  | .long .help none :: _ => .error .help
  | .long .verbose none :: rest => .ok ({ g with verbose := true }, rest)
  | .long .indent (some value) :: rest => do return ({ g with layout := ← layoutOf value }, rest)
  | .long .indent none :: .positional value :: rest => do return ({ g with layout := ← layoutOf value.toList }, rest)
  | .cluster letters :: _ => .error (requestOfCluster letters)
  | .unknown :: rest => .ok ({ g with leftOver := true }, rest)
  | _ => .error .misuse

/-- Goes through the words, an option or a run of positional arguments at a time; `fuel` is the number of words. -/
def gather : (fuel : Nat) → Gathered → List Word → Except Request Gathered
  | 0, g, words => .ok { g with leftOver := g.leftOver || !words.isEmpty }
  | fuel + 1, g, words =>
    let (plain, options) := untilOption words
    let (texts, rest) := takePositionals (2 - g.positionals.length) words
    if options.isEmpty then
      .ok { g with positionals := g.positionals ++ texts, leftOver := g.leftOver || !rest.isEmpty }
    else if !texts.isEmpty then gather fuel { g with positionals := g.positionals ++ texts } rest
    else do
      let (g, rest) ← { g with leftOver := g.leftOver || !plain.isEmpty }.takeOption options
      gather fuel g rest

/-- What some arguments ask for. -/
def request (arguments : List String) : Request :=
  match classifyAll? arguments with
  | none => .misuse
  | some words =>
    match gather words.length ⟨[], some .spaced, false, false⟩ words with
    | .error request => request
    | .ok ⟨[some input, output], layout, verbose, false⟩ => .run ⟨input, output, layout, verbose⟩
    | .ok _ => .misuse

end SceneTree.CommandLine
