/-! Where the service is, and how long to wait for it. -/
namespace Solr

/-- Times are in milliseconds. -/
structure Settings where
  baseUrl : String
  connectTimeout : Option Nat
  requestTimeout : Option Nat
  deriving DecidableEq

namespace Settings

/-- The variable of the environment that names the service. -/
def baseUrlVariable : String := "SOLR_BASE_URL"

def defaultBaseUrl : String := "http://localhost:8983/solr"

/-- The text without the slashes at its end. -/
def trimSlashes (s : String) : String :=
  String.ofList (s.toList.reverse.dropWhile (· = '/')).reverse

def ofBaseUrl (url : String) : Settings :=
  ⟨trimSlashes url, none, none⟩

/-- The settings for the value of the variable, if it has one. -/
def ofEnvironment (value : Option String) : Settings :=
  ofBaseUrl (value.getD defaultBaseUrl)

def withConnectTimeout (s : Settings) (milliseconds : Nat) : Settings :=
  { s with connectTimeout := some milliseconds }

def withRequestTimeout (s : Settings) (milliseconds : Nat) : Settings :=
  { s with requestTimeout := some milliseconds }

end Settings
end Solr
