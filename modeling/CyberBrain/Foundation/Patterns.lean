import Mathlib.Data.List.Basic

/-!
# Patterns

Regular expressions with greedy repetition, word boundaries and one group. A pattern lists the
places it can lead to in the order in which a backtracking matcher tries them.
-/

namespace CyberBrain

/-- What a matcher takes from the Unicode database. -/
structure CharClasses where
  /-- `\w`. -/
  isWord : Char → Bool
  /-- `\d`. -/
  isDecimal : Char → Bool
  /-- Two characters that `re.IGNORECASE` does not tell apart. -/
  alike : Char → Char → Bool

/-- The classes on ASCII texts. -/
def CharClasses.ascii : CharClasses where
  isWord c := c.isAlphanum || c = '_'
  isDecimal c := c.isDigit
  alike c d := c.toLower = d.toLower

inductive Pattern where
  | empty
  | char (p : Char → Bool)
  | boundary
  | seq (a b : Pattern)
  | alt (a b : Pattern)
  | many (a : Pattern)
  | group (a : Pattern)

namespace Pattern

/-- A place in a text: the characters before it, the last one first, those after it, and what the
group has matched on the way. -/
structure Place where
  before : List Char
  after : List Char
  group : List Char

/-- The characters between two places. -/
def between (start stop : Place) : List Char :=
  (stop.before.take (stop.before.length - start.before.length)).reverse

/-- As many repetitions as possible, at most `n`, then fewer. -/
def repeated (f : Place → List Place) : ℕ → Place → List Place
  | 0, place     => [place]
  | n + 1, place => (f place).flatMap (repeated f n) ++ [place]

/-- The places that a pattern leads to, in the order in which they are tried. -/
def places (re : CharClasses) : Pattern → Place → List Place
  | empty, place  => [place]
  | char p, place =>
    match place.after with
    | []      => []
    | c :: cs => if p c then [{ place with before := c :: place.before, after := cs }] else []
  | boundary, place =>
    if place.before.head?.any re.isWord = place.after.head?.any re.isWord then [] else [place]
  | seq a b, place => (a.places re place).flatMap (b.places re)
  | alt a b, place => a.places re place ++ b.places re place
  | many a, place  => repeated (a.places re) place.after.length place
  | group a, place => (a.places re place).map fun stop => { stop with group := between place stop }

/-- `a+`. -/
def atLeastOnce (a : Pattern) : Pattern := seq a (many a)

/-- A text up to case. -/
def ignoringCase (re : CharClasses) (text : String) : Pattern :=
  text.toList.foldr (fun c rest => seq (char (re.alike c)) rest) empty

/-- One of some patterns, the first that matches. -/
def oneOf (patterns : List Pattern) : Pattern := patterns.foldr alt (char fun _ => false)

/-- The matches from a place on, none inside another: what is matched and the group. -/
def findFrom (re : CharClasses) (pattern : Pattern) : ℕ → Place → List (List Char × List Char)
  | 0, _         => []
  | n + 1, place =>
    match (pattern.places re place).head? with
    | some stop =>
      (between place stop, stop.group) :: findFrom re pattern n { stop with group := [] }
    | none      =>
      match place.after with
      | []      => []
      | c :: cs => findFrom re pattern n { place with before := c :: place.before, after := cs }

/-- The matches of a pattern that does not match the empty text. -/
def findAll (re : CharClasses) (pattern : Pattern) (text : String) :
    List (List Char × List Char) :=
  findFrom re pattern (text.length + 1) { before := [], after := text.toList, group := [] }

end Pattern

end CyberBrain
