import OpeningHand.CommandLine.Pieces

/-!
# Reading command lines

From the pieces of a command line to what they give: values of options in order, the words of the
operand, and the words that the form has no use for. Options may stand before and after the operand.
Letters of options without values may share one hyphen. The first thing wrong, from left to right,
ends the reading, and so does a wish for help.
-/

namespace OpeningHand.CommandLine

/-- What pieces gave so far; an option without value gives the empty text. -/
structure Reading where
  given : List (Key × String)
  operand : List String
  unused : List String
  deriving Repr, DecidableEq

namespace Reading

/-- Nothing given. -/
def start : Reading :=
  ⟨[], [], []⟩

/-- The reading with words that have no use. -/
def leave (r : Reading) (words : List String) : Reading :=
  { r with unused := r.unused ++ words }

/-- The last value given for an option. -/
def value? (r : Reading) (key : Key) : Option String :=
  r.given.reverse.lookup key

/-- Gives an option, with its value if it has one. -/
def give (r : Reading) (o : Opt) (value : Option String) : Except Stop Reading :=
  match o.key, value with
  | .help, _ => .error .help
  | key, none => .ok { r with given := r.given ++ [(key, "")] }
  | key, some v =>
    if o.choices.isEmpty || o.choices.contains v then
      .ok { r with given := r.given ++ [(key, v)] }
    else .error (.misuse (.badChoice o.label v o.choices))

/-- Gives options in order. -/
def giveAll (r : Reading) : List (Opt × Option String) → Except Stop Reading
  | [] => .ok r
  | (o, value) :: more =>
    match r.give o value with
    | .error stop => .error stop
    | .ok r => r.giveAll more

/-- Gives the operand. -/
def giveOperand (r : Reading) (operand : Operand) (words : List String) : Except Stop Reading :=
  let choices := operand.choices.map Choice.word
  let first := words.headD ""
  if choices.isEmpty || choices.contains first then .ok { r with operand := words }
  else .error (.misuse (.badChoice operand.label first choices))

end Reading

/-! ## Options that share a hyphen -/

/-- What is open after the options of one word: nothing, an option that waits for its value, or
letters that are no options. -/
inductive Open where
  | nothing
  | value (o : Opt)
  | letters (text : String)
  deriving Repr, DecidableEq

/-- The options that one word gives, with their values, and what it leaves open. -/
structure Cluster where
  given : List (Opt × Option String)
  rest : Open
  deriving Repr, DecidableEq

/-- The cluster with an option without value before it. -/
def Cluster.after (o : Opt) (c : Cluster) : Cluster :=
  { c with given := (o, none) :: c.given }

/-- An option with nothing attached. -/
def Cluster.bare (o : Opt) : Cluster :=
  if o.takesValue then ⟨[], .value o⟩ else ⟨[(o, none)], .nothing⟩

/-- The options of one word from an option with a text attached. The text is the value of an option
that takes one; behind an option of one letter it is more letters of options. -/
def Form.cluster (f : Form) (o : Opt) (isLetter byEquals : Bool) :
    List Char → Except Misuse Cluster
  | [] => if o.takesValue then .ok ⟨[(o, some "")], .nothing⟩ else .error (.unusedValue o.label "")
  | c :: cs =>
    let text := String.ofList (c :: cs)
    if o.takesValue then .ok ⟨[(o, some text)], .nothing⟩
    else if !isLetter || byEquals || c = '-' then .error (.unusedValue o.label text)
    else
      match f.option? ['-', c], cs with
      | none, _ => .ok ⟨[(o, none)], .letters (String.ofList ('-' :: c :: cs))⟩
      | some o', [] => .ok ((Cluster.bare o').after o)
      | some o', '=' :: value => (f.cluster o' true true value).map (Cluster.after o)
      | some o', more => (f.cluster o' true false more).map (Cluster.after o)
termination_by cs => cs.length

/-- The options of one word. -/
def Form.clusterOf (f : Form) (hit : Hit) : Except Misuse Cluster :=
  match hit.attached with
  | none => .ok (.bare hit.option)
  | some a =>
    f.cluster hit.option (hit.name[1]? ≠ some '-') a.byEquals a.text

/-! ## All pieces -/

/-- Pieces after a mark that stood first. -/
def dropMark : List Piece → List Piece
  | .mark :: ps => ps
  | ps => ps

theorem length_dropMark_le (ps : List Piece) : (dropMark ps).length ≤ ps.length := by
  unfold dropMark
  split <;> simp

/-- Reads pieces. -/
def Form.readPieces (f : Form) (r : Reading) : List Piece → Except Stop Reading
  | [] => .ok r
  | .option text none :: ps => f.readPieces (r.leave [text]) ps
  | .option _ (some hit) :: ps =>
    match f.clusterOf hit with
    | .error m => .error (.misuse m)
    | .ok ⟨given, .nothing⟩ =>
      match r.giveAll given with
      | .error stop => .error stop
      | .ok r => f.readPieces r ps
    | .ok ⟨given, .letters text⟩ =>
      match (r.leave [text]).giveAll given with
      | .error stop => .error stop
      | .ok r => f.readPieces r ps
    | .ok ⟨given, .value o⟩ =>
      match ps with
      | .word v :: ps =>
        match r.giveAll (given ++ [(o, some v)]) with
        | .error stop => .error stop
        | .ok r => f.readPieces r ps
      | _ => .error (.misuse (.noValue o.label))
  | .word text :: ps =>
    if !r.operand.isEmpty then f.readPieces (r.leave [text]) ps
    else if f.operand.takesRest then r.giveOperand f.operand (text :: ps.map Piece.text)
    else
      match r.giveOperand f.operand [text] with
      | .error stop => .error stop
      | .ok r => f.readPieces r (dropMark ps)
  | .mark :: ps =>
    match ps with
    | .word text :: ps =>
      if !r.operand.isEmpty then f.readPieces (r.leave ["--", text]) ps
      else if f.operand.takesRest then
        r.giveOperand f.operand ("--" :: text :: ps.map Piece.text)
      else
        match r.giveOperand f.operand [text] with
        | .error stop => .error stop
        | .ok r => f.readPieces r ps
    | ps => f.readPieces (r.leave ["--"]) ps
termination_by ps => ps.length
decreasing_by
  all_goals simp only [List.length_cons]
  all_goals first
    | omega
    | exact Nat.lt_succ_of_le (length_dropMark_le _)

/-- Reads the words of a command line. -/
def Form.read (f : Form) (words : List String) : Except Stop Reading := do
  let pieces ← (f.pieces words).mapError .misuse
  let r ← f.readPieces .start pieces
  if r.operand.isEmpty then throw (.misuse (.missing f.operand.label))
  return r

end OpeningHand.CommandLine
