import EngineHost.Template.Directive
import EngineHost.Template.Node

/-!
# The functions of templates

Comparison, indexing, escaping and printing. Arguments that are places are looked into first; what
a function cannot do with its arguments is a fault with a cause.
-/

namespace EngineHost.Template

/-- Why a function cannot be applied to its arguments. -/
inductive CallFault
  | missingArgument
  | badComparison (a b : Datum)
  | badComparisonType
  | notComparable (d : Datum)
  | notComparableWith (a b : Datum)
  | indexOfNil
  | indexOfNull
  | badIndexNil
  | badIndexType (typeName : Bytes)
  | outOfRange (n : Int)
  /-- An index just behind the last item. -/
  | behindLast (what : Bytes)
  | badKeyNil
  | badKeyType (typeName : Bytes)
  | cannotIndex (typeName : Bytes)
  | sliceOfNil
  | tooManyIndexes (n : Nat)
  | threeIndexText
  | cannotSlice (typeName : Bytes)
  | badSlice (lo hi : Nat)
  | lenOfNil
  | lenOfNull
  | noLen (typeName : Bytes)
  | callOfNil
  | notFunction (name typeName : Bytes)
deriving Inhabited

namespace CallFault

def shown (d : Datum) : Bytes := Format.datum {} 's' (some d)

def message : CallFault → Bytes
  | missingArgument => "missing argument for comparison"
  | badComparison a b =>
    "incompatible types for comparison: " ++ a.typeName ++ " and " ++ b.typeName
  | badComparisonType => "invalid type for comparison"
  | notComparable d => "non-comparable type " ++ shown d ++ ": " ++ d.typeName
  | notComparableWith a b =>
    "non-comparable types " ++ shown a ++ ": " ++ a.typeName ++ ", " ++ b.typeName ++ ": " ++
      Format.display (some b)
  | indexOfNil => "index of untyped nil"
  | indexOfNull => "index of nil pointer"
  | badIndexNil => "cannot index slice/array with nil"
  | badIndexType t => "cannot index slice/array with type " ++ t
  | outOfRange n => "index out of range: " ++ Bytes.ofInt n
  | behindLast what => "reflect: " ++ what ++ " index out of range"
  | badKeyNil => "value is nil; should be of type string"
  | badKeyType t => "value has type " ++ t ++ "; should be string"
  | cannotIndex t => "can't index item of type " ++ t
  | sliceOfNil => "slice of untyped nil"
  | tooManyIndexes n => "too many slice indexes: " ++ Bytes.ofNat n
  | threeIndexText => "cannot 3-index slice a string"
  | cannotSlice t => "can't slice item of type " ++ t
  | badSlice lo hi => "invalid slice index: " ++ Bytes.ofNat lo ++ " > " ++ Bytes.ofNat hi
  | lenOfNil => "reflect: call of reflect.Value.Type on zero Value"
  | lenOfNull => "len of nil pointer"
  | noLen t => "len of type " ++ t
  | callOfNil => "call of nil"
  | notFunction name t => "non-function " ++ name ++ " of type " ++ t

def thing : CallFault → Format.Thing
  | lenOfNil =>
    { typeName := "*reflect.ValueError"
      text := lenOfNil.message
      parts := [⟨"Method", "string", .string "reflect.Value.Type"⟩,
        ⟨"Kind", "reflect.Kind", .uint64 0⟩]
      isFault := true }
  | fault => .fault fault.message

end CallFault

namespace Function

/-! ## Comparison -/

/-- A value of a type with an order or an equality of its own. -/
inductive Comparable
  | bool (b : Bool)
  | complex (re im : Binary64)
  | float (x : Binary64)
  | integer (signed : Bool) (n : Int)
  | string (s : Bytes)

def Comparable.of? : Datum → Option Comparable
  | .int n => some (.integer true n.toInt)
  | .int64 n => some (.integer true n.toInt)
  | .uint64 n => some (.integer false n.toNat)
  | .byte n => some (.integer false n.toNat)
  | .float x => some (.float x)
  | .complex re im => some (.complex re im)
  | .string s => some (.string s)
  | .bool b => some (.bool b)
  | _ => none

/-- Whether two values are equal; nothing if their types differ. Integers compare across
signs. -/
def Comparable.equal? : Comparable → Comparable → Option Bool
  | .bool a, .bool b => some (a == b)
  | .complex a b, .complex c d => some (a.equal c && b.equal d)
  | .float a, .float b => some (a.equal b)
  | .integer _ a, .integer _ b => some (a == b)
  | .string a, .string b => some (a == b)
  | _, _ => none

/-- Whether two values without an equality of their own are of one kind. -/
def sameKind : Datum → Datum → Bool
  | .list _ _, .list _ _ | .time _, .time _ => true
  | a, b => isMapping a && isMapping b
where
  /-- Whether a value is a mapping of any type. -/
  isMapping : Datum → Bool
    | .map _ | .noMap | .mixed _ => true
    | _ => false

def isNull : Option Datum → Bool
  | none | some .noMap => true
  | _ => false

/-- Whether two arguments are equal. What has no equality of its own equals null or not. -/
def equal (a b : Option Datum) : Except CallFault Bool :=
  match a, b with
  | some a, some b =>
    match Comparable.of? a, Comparable.of? b with
    | some x, some y => (x.equal? y).elim (.error (.badComparison a b)) .ok
    | none, none =>
      if !sameKind a b then .error (.notComparableWith a b)
      else if isNull (some a) || isNull (some b) then .ok (isNull (some a) == isNull (some b))
      else .error (.notComparable b)
    | _, _ => .error (.badComparison a b)
  | a, b => .ok (isNull a == isNull b)

def equalToAny (a : Option Datum) : List (Option Datum) → Except CallFault Bool
  | [] => .ok false
  | b :: rest => do if ← equal a b then return true else equalToAny a rest

def less (a b : Option Datum) : Except CallFault Bool :=
  match a, b with
  | some a, some b =>
    match Comparable.of? a, Comparable.of? b with
    | some (.float x), some (.float y) => .ok (x.less y)
    | some (.integer _ x), some (.integer _ y) => .ok (x < y)
    | some (.string x), some (.string y) => .ok (Bytes.less x y)
    | some (.bool _), some (.bool _) | some (.complex _ _), some (.complex _ _) =>
      .error .badComparisonType
    | some _, some _ => .error (.badComparison a b)
    | _, _ => .error .badComparisonType
  | _, _ => .error .badComparisonType

def lessEqual (a b : Option Datum) : Except CallFault Bool := do
  if ← less a b then return true else equal a b

/-! ## Items -/

def indexArgument (bound : Nat) : Option Datum → Except CallFault Nat
  | none => .error .badIndexNil
  | some d =>
    match Comparable.of? d with
    | some (.integer _ n) =>
      let n := (Int64.ofInt n).toInt
      if n < 0 ∨ (bound : Int) < n then .error (.outOfRange n) else .ok n.toNat
    | _ => .error (.badIndexType d.typeName)

def item (d : Datum) (index : Option Datum) : Except CallFault Cell :=
  match d with
  | .list items _ => do
    let i ← indexArgument items.length index
    match items[i]? with
    | some v => return .place v
    | none => throw (.behindLast "slice")
  | .string s => do
    let i ← indexArgument s.length index
    match s[i]? with
    | some b => return .datum (.byte b)
    | none => throw (.behindLast "string")
  | .map entries =>
    match index with
    | none => throw .badKeyNil
    | some (.string k) => return .place ((Dict.get? entries k).getD .null)
    | some d => throw (.badKeyType d.typeName)
  | .noMap =>
    match index with
    | none => throw .badKeyNil
    | some (.string _) => return .place .null
    | some d => throw (.badKeyType d.typeName)
  | .mixed _ => return .place .null
  | _ => throw (.cannotIndex d.typeName)

def itemAt (c : Cell) : List Cell → Except CallFault Cell
  | [] => .ok c
  | index :: rest => do
    match c.value? with
    | none => throw .indexOfNull
    | some d => itemAt (← item d index.value?) rest

def index (c : Cell) (path : List Cell) : Except CallFault Cell :=
  match c.value? with
  | none => .error .indexOfNil
  | some d => itemAt (.datum d) path

/-- A bound of a part. A place is no number, whatever it holds. -/
def bound (limit : Nat) : Cell → Except CallFault Nat
  | .absent => .error .badIndexNil
  | .place _ => .error (.badIndexType Datum.anyName)
  | .datum d => indexArgument limit (some d)

/-- The first and the second bound of a part of something with `length` items, and the third one
if it is given. -/
def sliceBounds (bounds : List Cell) (length limit : Nat) :
    Except CallFault (Nat × Nat × Option Nat) := do
  let given ← bounds.mapM (bound limit)
  let lo := given.headD 0
  let hi := (given[1]?).getD length
  if hi < lo then throw (.badSlice lo hi)
  match given[2]? with
  | some top => if top < hi then throw (.badSlice hi top)
  | none => pure ()
  return (lo, hi, given[2]?)

/-- A part of a list or of a text. A part of a list may reach beyond it into the list that it is
itself a part of, up to the third bound of that part. -/
def slice (c : Cell) (bounds : List Cell) : Except CallFault Cell := do
  match c.value? with
  | none => throw .sliceOfNil
  | some d =>
    if 3 < bounds.length then throw (.tooManyIndexes bounds.length)
    match d with
    | .string s =>
      if bounds.length = 3 then throw .threeIndexText
      let (lo, hi, _) ← sliceBounds bounds s.length s.length
      return .datum (.string ((s.take hi).drop lo))
    | .list items beyond =>
      let all := items ++ beyond
      let (lo, hi, top) ← sliceBounds bounds items.length all.length
      return .datum (.list ((all.take hi).drop lo) ((all.take (top.getD all.length)).drop hi))
    | _ => throw (.cannotSlice d.typeName)

def length (c : Cell) : Except CallFault Nat :=
  match c with
  | .absent => .error .lenOfNil
  | c =>
    match c.value? with
    | none => .error .lenOfNull
    | some d => (d.length?).elim (.error (.noLen d.typeName)) .ok

/-! ## Text -/

/-- Arguments as one text; a null reads as no value. -/
def plainText (args : List (Option Datum)) : Bytes :=
  Format.concat (args.map fun d => some (d.getD (.string "<no value>")))

/-- One byte of a text for use in a document of elements. -/
def htmlByte (b : UInt8) : Bytes :=
  if b = 34 then "&#34;"
  else if b = 39 then "&#39;"
  else if b = 38 then "&amp;"
  else if b = 60 then "&lt;"
  else if b = 62 then "&gt;"
  else if b = 0 then Utf8.encode Utf8.replacement
  else [b]

/-- A piece of a text for use in a quoted text of a script. -/
def scriptPiece : Utf8.Piece → Bytes
  | .stray b => [b]
  | .char c =>
    let n := c.toNat
    if c = '\\' then "\\\\"
    else if c = '\x27' then "\\'"
    else if c = '"' then "\\\""
    else if n < 32 || c == '<' || c == '>' || c == '&' || c == '=' || !isPrintable c && n != 127 then
      "\\u" ++ Bytes.padLeft 4 48 (Format.digitsIn 16 true n)
    else Utf8.encode c

def queryByte (b : UInt8) : Bytes :=
  if Bytes.isDigit b || (65 ≤ b && b ≤ 90) || (97 ≤ b && b ≤ 122) || b == 45 || b == 95 ||
      b == 46 || b == 126 then [b]
  else if b = 32 then "+"
  else "%" ++ Format.upper (Bytes.hexByte b)

/-! ## Calls -/

/-- The least number of arguments of a function, and whether it takes more. -/
def arity : Builtin → Nat × Bool
  | .conj | .disj | .call | .index | .slice | .printf | .eq => (1, true)
  | .negate | .len => (1, false)
  | .html | .js | .print | .println | .urlquery => (0, true)
  | .ne | .lt | .le | .gt | .ge => (2, false)

def truth (b : Bool) : Cell := .datum (.bool b)

def text (s : Bytes) : Cell := .datum (.string s)

/-- The first two arguments, without the places around them. -/
def two (args : List Cell) : Option Datum × Option Datum :=
  (args.head?.bind Cell.value?, ((args[1]?).bind Cell.value?))

/-- Applies a function to its arguments. The functions that need not look at all of their
arguments are not among them. -/
def apply (f : Builtin) (args : List Cell) : Except CallFault Cell :=
  let values := args.map Cell.value?
  let first := args.headD .absent
  let (a, b) := two args
  match f with
  | .negate => .ok (truth !first.isTrue)
  | .html => .ok (text ((plainText values).flatMap htmlByte))
  | .js => .ok (text ((Utf8.pieces (plainText values)).flatMap scriptPiece))
  | .urlquery => .ok (text ((plainText values).flatMap queryByte))
  | .print => .ok (text (Format.concat values))
  | .println => .ok (text (Format.line values))
  | .printf =>
    match a with
    | some (.string s) => .ok (text (Format.format s ((values.drop 1).map .value)))
    | _ => .ok (text [])
  | .len => (length first).map fun n => .datum (.int (Int64.ofNat n))
  | .index => index first (args.drop 1)
  | .slice => slice first (args.drop 1)
  | .eq => if args.length < 2 then .error .missingArgument
      else (equalToAny a (values.drop 1)).map truth
  | .ne => (equal a b).map fun t => truth !t
  | .lt => (less a b).map truth
  | .le => (lessEqual a b).map truth
  | .gt => (lessEqual a b).map fun t => truth !t
  | .ge => (less a b).map fun t => truth !t
  | .conj | .disj | .call => .ok .absent

end Function

end EngineHost.Template
