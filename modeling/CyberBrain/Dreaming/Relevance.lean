import CyberBrain.Dreaming.Gate
import CyberBrain.Foundation.Lines
import CyberBrain.Foundation.Patterns

/-!
# Topic relevance

A lexical guard for what a bounded topic is about: a text has to share anchors of the topic, its
identifiers and its phase with it. An excerpt of a long text shows the lines around anchors.
-/

namespace CyberBrain.Dreaming.Relevance

open Python

variable (py : Runtime) (re : CharClasses)

/-! ### Patterns -/

/-- `[a-z]` up to case. -/
def isLetterAlike (c : Char) : Bool :=
  "abcdefghijklmnopqrstuvwxyz".toList.any fun letter => re.alike letter c

/-- `_TOKEN_RE.findall`. -/
def tokenize (text : String) : List String := (alnumRuns text.toList).map String.ofList

/-- `_PHASE_RE`. -/
def phaseRe : Pattern :=
  .seq .boundary (.seq (.ignoringCase re "phase")
    (.seq (.many (.char fun c => isSpace c || c ∈ ['.', '_', '-']))
      (.seq (.group (.atLeastOnce (.char re.isDecimal))) .boundary)))

/-- `_IDENTIFIER_RE.fullmatch` of a token. -/
def isIdentifier (token : String) : Bool :=
  token.toList.any (fun c => 'a' ≤ c && c ≤ 'z') && token.toList.any Char.isDigit &&
    6 ≤ token.length

/-- `_HOSTNAME_RE`. -/
def hostnameRe : Pattern :=
  .seq .boundary (.seq
    (.atLeastOnce (.seq
      (.atLeastOnce (.char fun c => isLetterAlike re c || c.isDigit || c = '-'))
      (.char (· = '.'))))
    (.seq (.seq (.char (isLetterAlike re)) (.atLeastOnce (.char (isLetterAlike re)))) .boundary))

/-- `_OUTCOME_CUE_RE`. -/
def outcomeCueRe : Pattern :=
  .oneOf (
    (["result", "results", "conclusion", "confirmed", "verified", "resolved", "ready", "passed",
      "failed", "root cause"].map fun cue =>
        .seq .boundary (.seq (.ignoringCase re cue) .boundary)) ++
    ["đã rõ", "kết quả", "kết luận", "xác nhận", "hoàn tất", "hoàn thành", "thực chất", "mấu chốt",
      "tóm lại", "đúng là", "→", "=>", "="].map (.ignoringCase re))

def genericTopicTokens : List String :=
  ["a", "an", "and", "after", "before", "for", "from", "gate", "gates", "in", "mcp", "of", "on",
    "phase", "project", "quality", "slnctrz", "the", "to", "with"]

def anchorAliases : List (String × List String) :=
  [("oauth", ["authorization", "authorisation", "oauth"]),
    ("persistence", ["autostart", "persist", "persistence", "persistent"]),
    ("reboot", ["boot", "reboot", "restart", "restarted", "restarting"]),
    ("standalone", ["sea", "standalone"]),
    ("write", ["write", "writes", "writing"])]

/-! ### Anchors -/

/-- `_phase`. -/
def phase (value : String) : Option (List Char) :=
  ((phaseRe re).findAll re value).head?.map (·.2)

/-- `_PHASE_RE.findall`. -/
def phases (text : String) : List (List Char) := ((phaseRe re).findAll re text).map (·.2)

/-- `_anchors`. -/
def anchors (topic : String) : List String :=
  ((tokenize (py.casefold topic)).filter fun token =>
    !token.toList.all Char.isDigit && token ∉ genericTopicTokens).eraseDups

/-- `_anchor_matches`. -/
def anchorMatches (anchor : String) (tokens : List String) : Bool :=
  ((anchorAliases.lookup anchor).getD [anchor]).any (· ∈ tokens) ||
    6 ≤ anchor.length && tokens.any fun token =>
      6 ≤ token.length && (anchor.toList.take 5).isPrefixOf token.toList

/-- The anchors that are identifiers. -/
def identifiers (topic : String) : List String := (anchors py topic).filter isIdentifier

/-- `_intent_anchors`. -/
def intentAnchors (topic : String) (anchors : List String) : List String :=
  let hostnameTokens := ((hostnameRe re).findAll re (py.casefold topic)).flatMap fun hostname =>
    tokenize (String.ofList hostname.1)
  if hostnameTokens ≠ [] then
    anchors.filter fun anchor => !anchorMatches anchor hostnameTokens
  else if anchors.length ≤ 1 then anchors
  else anchors.drop 1

/-- `_multi_anchor_coverage`. -/
def multiAnchorCoverage (topic : String) (anchors «matched» : List String) : Bool :=
  let intentMatches := «matched».countP (· ∈ intentAnchors py re topic anchors)
  2 ≤ intentMatches || 3 ≤ «matched».length && 1 ≤ intentMatches

/-- `text_relevant`. -/
def textRelevant (topic text : String) : Bool :=
  let anchors := anchors py topic
  let tokens := tokenize (py.casefold text)
  let identifiers := identifiers py topic
  let topicPhase := phase re topic
  let matching := anchors.filter fun anchor => anchorMatches anchor tokens
  if anchors = [] then true
  else if identifiers ≠ [] then identifiers.all (· ∈ tokens)
  else if anchors.length = 1 ∧ topicPhase = none then true
  else if ∃ n ∈ topicPhase, n ∉ phases re text then false
  else if matching.head? ≠ anchors.head? then false
  else if 5 ≤ anchors.length then multiAnchorCoverage py re topic anchors matching
  else (if anchors.length = 1 then 1 else 2) ≤ matching.length

/-! ### Excerpts -/

/-- The options of `topic_excerpt`. -/
structure ExcerptOptions where
  maxChars : ℕ := 3600
  contextLines : ℕ := 3
  maxWindows : ℕ := 4
  includeOutcomeWindow : Bool := false

/-- The lines from `start` on, up to `stop`. -/
structure Window where
  start : ℕ
  stop : ℕ
  deriving DecidableEq

/-- Two windows that overlap. -/
def Window.Meets (w prior : Window) : Prop := ¬ (w.stop ≤ prior.start ∨ prior.stop ≤ w.start)

instance (w prior : Window) : Decidable (w.Meets prior) := inferInstanceAs (Decidable (¬ _))

/-- The window around a line. -/
def windowAt (count context index : ℕ) : Window :=
  ⟨index - context, min count (index + context + 1)⟩

/-- The text of a window. -/
def windowText (lines : List (List Char)) (w : Window) : List Char :=
  ['\n'].intercalate ((lines.take w.stop).drop w.start)

/-- What stands between two windows. -/
def windowSeparator : List Char := "\n...\n".toList

/-- `sorted(selected)`. -/
def byPosition (windows : List Window) : List Window :=
  windows.insertionSort fun a b => toLex (a.start, a.stop) ≤ toLex (b.start, b.stop)

variable (topic : String) (options : ExcerptOptions) (lines : List (List Char))

/-- The score of a line. -/
def lineScore (line : String) : ℕ :=
  let tokens := tokenize (py.casefold line)
  let position (p : String × ℕ) : ℕ :=
    if anchorMatches p.1 tokens then (if p.2 = 0 then 10 else 6) else 0
  (if ∃ n ∈ phase re topic, n ∈ phases re line then 8 else 0) +
    12 * (identifiers py topic).countP (· ∈ tokens) + ((anchors py topic).zipIdx.map position).sum

/-- The lines with a score, each as its score and its index. -/
def rankedLines : List (ℕ × ℕ) :=
  (lines.zipIdx.map fun p => (lineScore py re topic (String.ofList p.1), p.2)).filter (·.1 ≠ 0)

/-- `sorted(ranked, key=lambda item: (-item[0], item[1]))`. -/
def byScore (ranked : List (ℕ × ℕ)) : List (ℕ × ℕ) :=
  ranked.insertionSort fun a b => toLex (-(a.1 : ℤ), a.2) ≤ toLex (-(b.1 : ℤ), b.2)

/-- `sorted(ranked, key=lambda item: (item[1], -item[0]))`. -/
def byIndex (ranked : List (ℕ × ℕ)) : List (ℕ × ℕ) :=
  ranked.insertionSort fun a b => toLex (a.2, -(a.1 : ℤ)) ≤ toLex (b.2, -(b.1 : ℤ))

/-- The loop that selects windows, best line first, until they are relevant together. -/
def selectWindows : List ℕ → List Window → List Window
  | [], selected            => selected
  | index :: rest, selected =>
    let w := windowAt lines.length options.contextLines index
    if selected.any (w.Meets ·) then selectWindows rest selected
    else
      let selected := selected ++ [w]
      let provisional := windowSeparator.intercalate ((byPosition selected).map (windowText lines))
      if textRelevant py re topic (String.ofList provisional) then selected
      else if options.maxWindows ≤ selected.length then selected
      else selectWindows rest selected

/-- A window that tells of an outcome of the topic. -/
def outcomeMatch (window : String) : Bool :=
  let anchors := anchors py topic
  let identifiers := identifiers py topic
  let tokens := tokenize (py.casefold window)
  let localMatches := anchors.filter fun anchor => anchorMatches anchor tokens
  let identifierMatch := identifiers ≠ [] ∧ identifiers.all (· ∈ tokens)
  let phaseMatch := (∃ n ∈ phase re topic, n ∈ phases re window) ∧ localMatches ≠ []
  let intentMatch := 2 ≤ localMatches.length ∧
    (anchors.length < 3 ∨ (anchors.drop 2).any (· ∈ localMatches))
  (outcomeCueRe re).findAll re window ≠ [] ∧ (identifierMatch ∨ phaseMatch ∨ intentMatch)

/-- The loop that looks for an outcome after the selected windows. -/
def outcomeWindow (ranked : List (ℕ × ℕ)) (selected : List Window) : Option Window :=
  let latestEnd := (selected.map (·.stop)).foldl max 0
  let maxOutcomeGapLines := 80
  ((byIndex ranked).map fun item =>
    windowAt lines.length options.contextLines item.2).find? fun w =>
      ¬ (w.start < latestEnd ∨ maxOutcomeGapLines < w.start - latestEnd) ∧
        ¬ selected.any (w.Meets ·) ∧ outcomeMatch py re topic (String.ofList (windowText lines w))

/-- The windows of an excerpt, as they are selected. -/
def excerptWindows (ranked : List (ℕ × ℕ)) : List Window :=
  let selected := selectWindows py re topic options lines ((byScore ranked).map (·.2)) []
  if options.includeOutcomeWindow ∧ 2 ≤ (anchors py topic).length ∧
      selected.length < options.maxWindows then
    selected ++ (outcomeWindow py re topic options lines ranked selected).toList
  else selected

/-- The loop that puts the windows together under the budget. -/
def assembleParts (maxChars : ℕ) : List Window → List (List Char) → ℕ → List (List Char)
  | [], parts, _           => parts
  | w :: rest, parts, used =>
    let part := windowText lines w
    let gap := if parts = [] then 0 else windowSeparator.length
    if maxChars ≤ used + gap then parts
    else
      let remaining := maxChars - used - gap
      let part := if remaining < part.length then (part.take remaining).rdropWhile isSpace else part
      if part ≠ [] then assembleParts maxChars rest (parts ++ [part]) (used + gap + part.length)
      else assembleParts maxChars rest parts used

/-- `topic_excerpt`. -/
def topicExcerpt (text : String) : Option String :=
  let value := strip text
  if value = "" then none
  else if value.length ≤ options.maxChars then
    if textRelevant py re topic value then some value else none
  else
    let lines := contentLines value.toList
    let ranked := rankedLines py re topic lines
    if lines = [] ∨ ranked = [] then none
    else
      let windows := excerptWindows py re topic options lines ranked
      let parts := assembleParts lines options.maxChars (byPosition windows) [] 0
      let excerpt := String.ofList (windowSeparator.intercalate parts)
      if excerpt = "" ∨ ¬ textRelevant py re topic excerpt then none else some excerpt

end CyberBrain.Dreaming.Relevance
