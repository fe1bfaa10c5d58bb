import Solr.Text.Split
import Solr.Url.Form

/-! The text of a URL taken apart as the URL Standard has it for http and https, as far as the
target of a request depends on it. Whether the authority names a host is not looked at. -/
namespace Solr.Url

/-- Blanks and control characters count for nothing at the ends of a URL. -/
def isMargin (c : Char) : Bool :=
  c ≤ ' '

/-- Tabs and line breaks count for nothing anywhere. -/
def isSkipped (c : Char) : Bool :=
  c = '\t' || c = '\n' || c = '\r'

def cleaned (url : List Char) : List Char :=
  ((url.dropWhile isMargin).reverse.dropWhile isMargin).reverse.filter (!isSkipped ·)

/-- A backslash is as good as a slash. -/
def slashed (c : Char) : Char :=
  if c = '\\' then '/' else c

def endsPath (c : Char) : Bool :=
  c = '?' || c = '#'

def endsAuthority (c : Char) : Bool :=
  slashed c = '/' || endsPath c

def isSingleDot (piece : List Char) : Bool :=
  ([".", "%2e"].map String.toList).contains (piece.map Char.toLower)

def isDoubleDot (piece : List Char) : Bool :=
  (["..", ".%2e", "%2e.", "%2e%2e"].map String.toList).contains (piece.map Char.toLower)

/-- A piece of a path that is resolved, and is not sent. -/
def isDots (piece : List Char) : Bool :=
  isSingleDot piece || isDoubleDot piece

/-- The pieces of a path that begins with a slash; an empty path has none. -/
def pieces (path : List Char) : List (List Char) :=
  (Text.splitAt '/' (path.map slashed)).tail

def joined (pieces : List (List Char)) : List Char :=
  pieces.flatMap ('/' :: ·)

/-- The pieces up to here, the last of them first, and one more: two dots take one back. -/
def enter (before : List (List Char)) (piece : List Char) : List (List Char) :=
  if isDoubleDot piece then before.tail
  else if isSingleDot piece then before
  else piece :: before

/-- What is left of the pieces in front of others. -/
def settled (pieces : List (List Char)) : List (List Char) :=
  (pieces.foldl enter []).reverse

/-- What is left of all the pieces of a path. Dots at its end leave an empty piece. -/
def resolve (pieces : List (List Char)) : List (List Char) :=
  if pieces.getLast?.any isDots then settled pieces ++ [[]] else settled pieces

/-- A path as it is sent. -/
def pathOf (path : List Char) : List Char :=
  if path = [] then ['/'] else escapePath (joined (resolve (pieces path)))

/-- The query as it is sent, without the fragment that may follow it. -/
def queryOf : List Char → Option (List Char)
  | '?' :: query => some (escapeQuery (query.takeWhile (· ≠ '#')))
  | _ => none

/-- The authority as it is given; path and query as they are sent. -/
structure Parts where
  authority : List Char
  path : List Char
  query : Option (List Char)
  deriving DecidableEq

def isWeb (scheme : List Char) : Bool :=
  (["http", "https"].map String.toList).contains (scheme.map Char.toLower)

/-- The parts of what follows a scheme. -/
def locate? (rest : List Char) : Option Parts :=
  let rest := rest.dropWhile (slashed · = '/')
  let authority := rest.takeWhile (!endsAuthority ·)
  let more := rest.dropWhile (!endsAuthority ·)
  if authority = [] then none
  else some
    ⟨authority, pathOf (more.takeWhile (!endsPath ·)), queryOf (more.dropWhile (!endsPath ·))⟩

def parse? (url : List Char) : Option Parts :=
  match Text.splitOnce? ':' (cleaned url) with
  | some (scheme, rest) => if isWeb scheme then locate? rest else none
  | none => none

namespace Parts

/-- The pairs that stand in the query of a URL itself. -/
def pairs (u : Parts) : List (String × String) :=
  match u.query with
  | some query => Form.decode query
  | none => []

/-- What stands between the question mark and pairs that are appended. -/
def lead (u : Parts) : List Char :=
  match u.query with
  | none | some [] => []
  | some query => query ++ ['&']

/-- Path and query, with pairs appended to the query. -/
def target (u : Parts) (pairs : List (String × String)) : List Char :=
  if pairs = [] then
    match u.query with
    | none => u.path
    | some query => u.path ++ '?' :: query
  else u.path ++ '?' :: (u.lead ++ Form.encode pairs)

end Parts
end Solr.Url
