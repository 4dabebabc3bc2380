import ServiceDesk.Text.Ascii

/-!
Which bodies count as JSON. The media type of a request must be application/json, or a type under
application with the suffix json, in any case and with any parameters; a media type that is not
well-formed counts as none.
-/

namespace ServiceDesk.Web

open Text

def isTokenChar (c : Char) : Bool :=
  c.isAlphanum || ['!', '#', '$', '%', '&', '\x27', '*', '+', '-', '.', '^', '_', '\x60', '|',
    '~'].contains c

/-- The characters between the quotes of a parameter value. A header is ASCII text. -/
def isQuotedChar (c : Char) : Bool := ' ' ≤ c && c ≤ '~' && c != '\x22'

inductive ParameterPart where
  /-- The name of a parameter, or blanks before it. -/
  | name (begun : Bool)
  | value (begun : Bool)
  | quotedValue (begun : Bool)
  /-- Blanks after a quoted value. -/
  | gap
  deriving DecidableEq, Repr

def areParameters : ParameterPart → List Char → Bool
  | .name begun, [] => !begun
  | .value _, [] => true
  | .quotedValue _, [] => false
  | .gap, [] => true
  | .name begun, c :: rest =>
    if c = ' ' ∧ !begun then areParameters (.name false) rest
    else if c = '=' ∧ begun then areParameters (.value false) rest
    else isTokenChar c && areParameters (.name true) rest
  | .value begun, c :: rest =>
    if c = '\x22' ∧ !begun then areParameters (.quotedValue false) rest
    else if c = ';' ∧ begun then areParameters (.name false) rest
    else isTokenChar c && areParameters (.value true) rest
  | .quotedValue begun, c :: rest =>
    if c = '\x22' ∧ begun then areParameters .gap rest
    else isQuotedChar c && areParameters (.quotedValue true) rest
  | .gap, c :: rest =>
    if c = ';' then areParameters (.name false) rest
    else c == ' ' && areParameters .gap rest

/-- Whether a type below application is JSON by its name or by its suffix. A plus sign at the very
front begins no suffix. -/
def isJsonSubtype (subtypeName : List Char) : Bool :=
  let json := ['j', 's', 'o', 'n']
  let folded := foldCase subtypeName
  let suffix := (folded.reverse.takeWhile (· != '+')).reverse
  let base := folded.take (folded.length - suffix.length - 1)
  if base.isEmpty then folded == json else base == json || suffix == json

def isJson (mediaType : String) : Bool :=
  let text := mediaType.toList
  let main := text.takeWhile (· != '/')
  let rest := (text.dropWhile (· != '/')).drop 1
  let subtypeName := rest.takeWhile (· != ';')
  let parameters := (rest.dropWhile (· != ';')).drop 1
  foldCase main == "application".toList && text.contains '/' &&
    !subtypeName.isEmpty && subtypeName.all isTokenChar &&
    areParameters (.name false) parameters && isJsonSubtype subtypeName

end ServiceDesk.Web
