import Wapsell.Lib.Regex
import Wapsell.Py.Logging
import Wapsell.Py.Text

/-!
# The secret-redacting log filter

`sdk/wapsell/security/log_filter.py`: the default patterns, `redact`, and
the filter that `install_redaction` attaches to a logger.

A pattern is a regular expression over characters with the flags of the
source, and `redactMatch` is the function that `re.sub` is given: of a
match the last group is replaced, so the key stays in the log and the
value does not. The filter of a logger is run only for records logged on
that logger.

The passes run one after the other over one text, each on what the last
has left. That is where a second `redact` can find more than the first,
and why the results look at what stands behind a marker.
-/

namespace Wapsell.Security

open Lib Py

/-- `_REDACTED`. -/
def REDACTED : String := "<redacted>"

/-! ## The character classes of the patterns -/

/-- The code points that fold to an ASCII letter besides its two cases: the dotted and dotless i,
the long s and the sign of kelvin. `re` matches them under `(?i)`. -/
def foldsTo (c : Char) : List Char :=
  match c.toLower with
  | 'i' => ['İ', 'ı']
  | 's' => ['ſ']
  | 'k' => ['\u212A']
  | _ => []

/-- A literal under `(?i)`. -/
def sameIgnoreCase (c x : Char) : Bool := x.toLower = c.toLower || (foldsTo c).contains x

/-- `[A-Z]` under `(?i)`. -/
def isLetter (c : Char) : Bool := c.isAlpha || ['İ', 'ı', 'ſ', '\u212A'].contains c

/-- `[A-Z0-9_]` under `(?i)`. -/
def isKeyChar (c : Char) : Bool := isLetter c || c.isDigit || c = '_'

/-- `[^\s'\",]`.

A value ends at white space, a quote or a comma, so what separates the fields of a line stays
readable. -/
def isValueChar (c : Char) : Bool := !isSpace c && c ≠ '\'' && c ≠ '"' && c ≠ ','

/-- `[A-Za-z0-9._\-+/=]` under `(?i)`. -/
def isCredentialChar (c : Char) : Bool :=
  isLetter c || c.isDigit || ['.', '_', '-', '+', '/', '='].contains c

/-- `[A-Za-z0-9_\-]`. -/
def isNakedKeyChar (c : Char) : Bool := c.isAlphanum || c = '_' || c = '-'

/-- `[A-Fa-f0-9]` under `(?i)`. -/
def isHexDigit (c : Char) : Bool :=
  c.isDigit || ('a' ≤ c.toLower && c.toLower ≤ 'f')

/-- A literal under `(?i)`. -/
def caseless (s : String) : Regex := .literal sameIgnoreCase s.toList

/-- A literal. -/
def exactly (s : String) : Regex := .literal (fun c x => decide (x = c)) s.toList

def many (p : Char → Bool) : Regex := .rep 0 none p

def many1 (p : Char → Bool) : Regex := .rep 1 none p

/-! ## `DEFAULT_SECRET_PATTERNS` -/

/-- `[A-Z][A-Z0-9_]*` and a suffix. -/
def keyEnding (suffix : String) : Regex := .inOrder [.one isLetter, many isKeyChar, caseless suffix]

/-- Env-style assignments: the key, then `:` or `=`, then the value.

The quote in front of the value is outside of its group and stays. Behind the value nothing is read,
since the class ends at the closing quote by itself. -/
def assignmentPattern : Regex :=
  .inOrder [.boundary,
    .group 1 (.oneOf [caseless "OPENROUTER_API_KEY", caseless "OPENAI_API_KEY",
      caseless "GEMINI_API_KEY", caseless "META_APP_SECRET", caseless "META_VERIFY_TOKEN",
      caseless "WAPSELL_ENCRYPTION_KEY", caseless "WASELLER_ENCRYPTION_KEY", keyEnding "_TOKEN",
      keyEnding "_SECRET", keyEnding "_PASSWORD"]),
    many isSpace, .one fun c => c = ':' || c = '=', many isSpace,
    .rep 0 (some 1) fun c => c = '\'' || c = '"', .group 2 (many1 isValueChar)]

/-- Authorization headers. -/
def authorizationPattern : Regex :=
  .inOrder [.boundary,
    .group 1 (.inOrder [caseless "Authorization", many isSpace, caseless ":", many isSpace,
      .oneOf [caseless "Bearer", caseless "Basic"], many1 isSpace]),
    .group 2 (many1 isCredentialChar)]

/-- Naked OpenAI-style keys.

The whole match is one group, so nothing of the key is left. It is the one pattern without
`(?i)`. -/
def nakedKeyPattern : Regex :=
  .inOrder [.boundary, .group 1 (.inOrder [exactly "sk-", .rep 16 none isNakedKeyChar])]

/-- Meta's signature header.

There is no word boundary in front: the name is found in the middle of a word as well. -/
def signaturePattern : Regex :=
  .inOrder [.group 1 (.inOrder [caseless "X-Hub-Signature-256", many isSpace, caseless ":",
      many isSpace]),
    .group 2 (.inOrder [caseless "sha256=", many1 isHexDigit])]

def DEFAULT_SECRET_PATTERNS : List Regex :=
  [assignmentPattern, authorizationPattern, nakedKeyPattern, signaturePattern]

/-! ## `redact` -/

/-- `_sub`: the match with its last group replaced, the whole match where there is no group.

The spans are positions in the text that was searched, so the start of the match is taken off
them. -/
def redactMatch (r : Regex) (m : Regex.Match) : List Char :=
  if r.groups = 0 then REDACTED.toList
  else
    let (start, stop) : Int × Int := match m.span r.groups with
      | some (start, stop) => (start, stop)
      | none => (-1, -1)
    sliceTo (start - m.start) m.text ++ REDACTED.toList ++ sliceFrom (stop - m.start) m.text

/-- `redact`: every pattern in order, each on what the ones before have left.

The order matters. A later pattern searches a text that holds the markers of the earlier ones, and a
marker is made of characters that some patterns read. -/
def redact (U : Unicode) (text : String) (patterns : List Regex := DEFAULT_SECRET_PATTERNS) :
    String :=
  String.ofList (patterns.foldl (fun out r => Regex.sub (isWord U) r (redactMatch r) out)
    text.toList)

example : redact Unicode.ascii "OPENAI_API_KEY=hunter2, ok" = "OPENAI_API_KEY=<redacted>, ok" := by
  decide +kernel

/-! ## The filter -/

section Filter

variable {α : Type} (percent : String → α → String) (U : Unicode)

/-- `SecretRedactingFilter.filter`: the record is formatted, redacted and let through.

The record goes on without arguments, so a handler that formats it cannot put a secret back. -/
def redactingFilter (patterns : List Regex := DEFAULT_SECRET_PATTERNS) : Logging.Filter α :=
  fun record =>
    some { record with msg := redact U (record.getMessage percent) patterns, args := none }

/-- `install_redaction`: on the root logger unless another is given.

It appends. A second call adds a second filter behind the first, which then runs on what the first
has left. -/
def installRedaction (H : Logging.Hierarchy α) (logger : Option String := none)
    (patterns : List Regex := DEFAULT_SECRET_PATTERNS) : Logging.Hierarchy α :=
  H.update (logger.getD "root") fun l =>
    { l with filters := l.filters ++ [redactingFilter percent U patterns] }

end Filter

end Wapsell.Security
