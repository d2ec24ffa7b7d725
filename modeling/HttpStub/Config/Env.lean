import HttpStub.Config.Basic
import HttpStub.Text.Blank
import HttpStub.Text.Decimal

/-!
# Configuration from the environment

`ServerConfig.ofEnv` reads `PORT`, `HOST`, `DISPATCH`, `MAX_CONCURRENCY`,
`MAX_PENDING`, `ROUTES`, `EMPTY_REQUEST` and `LOG_LEVEL`.  Each variable is
read on its own, and an absent or invalid value falls back to the default.

Numbers are decimal numerals after trimming blanks, within a range: ports
from 1 to 65535, a concurrency from 1 to 65535, and a queue bound from 0 to
one million.  A numeral is read as the double nearest to it, and that double
is compared with the bounds.  For bounds that are integers below `2^53`,
every double near an integer is that integer exactly, so the verdict is the
one the exact value gets.

Names are compared after trimming blanks and lowering the case of letters.
-/

namespace HttpStub

/-- Variables of the process environment, by name. -/
abbrev Env := String → Option String

/-- The number a text states, if it is a decimal numeral after trimming
whose nearest double lies in `[lo, hi]`; that double is the answer. -/
def parseIntInRange (value : Option String) (lo hi : Double) : Option Double := do
  let n ← Decimal.parse? (Blank.trim (← value))
  let d := Double.ofNat n
  if d.lt lo || hi.lt d then none else some d

/-- A port number from 1 to 65535. -/
def parsePort (value : Option String) : Option Double :=
  parseIntInRange value 1 65535

/-- The port of the environment's `PORT`, or the default port. -/
def resolvePort (env : Env) : Double :=
  (parsePort (env "PORT")).getD ServerConfig.defaultPort

namespace Keyword

/-- Lower the case of a character for comparing names.  The ASCII capitals
and the Kelvin sign lower into ASCII letters; any other character that is
not ASCII lowers to text with a character outside ASCII, so keeping it
leaves the comparison with an ASCII name unchanged. -/
def fold (c : Char) : Char :=
  if 'A' ≤ c && c ≤ 'Z' then Char.ofNat (c.toNat + 32)
  else if c.toNat == 0x212A then 'k'
  else c

/-- The text compared with names: trimmed, with letters lowered. -/
def normalize (s : String) : String :=
  String.map fold (Blank.trim s)

/-- The choice a variable names, or the fallback when it is absent or
names nothing. -/
def read {α : Type} (ofName? : String → Option α) (value : Option String)
    (fallback : α) : α :=
  match value with
  | some v => (ofName? (normalize v)).getD fallback
  | none => fallback

end Keyword

namespace ServerConfig

/-- The configuration an environment describes, over the defaults.  Every
variable falls back to its default on its own; the choices come out as the
names of known choices and the numbers within their ranges. -/
def ofEnv (env : Env) : ServerConfig :=
  let host := (env "HOST").map Blank.trim
  { default with
    port := resolvePort env
    host := match host with
      | some h => if h.isEmpty then default.host else h
      | none => default.host
    dispatch := (Keyword.read DispatchMode.ofName? (env "DISPATCH") .sequential).name
    maxConcurrency := (parseIntInRange (env "MAX_CONCURRENCY") 1 65535).getD 64
    maxPendingConnections := (parseIntInRange (env "MAX_PENDING") 0 1000000).getD 1024
    routes := (Keyword.read RouteTableName.ofName? (env "ROUTES") .plain).name
    emptyRequest :=
      (Keyword.read EmptyRequestPolicy.ofName? (env "EMPTY_REQUEST") .notFound).name
    logLevel := (Keyword.read LogLevel.ofName? (env "LOG_LEVEL") .info).name }

end ServerConfig
end HttpStub
