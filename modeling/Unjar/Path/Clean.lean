import Unjar.Path

namespace Unjar.Path

/-- One component put on a cleaned path, innermost component first. -/
def pushClean (stack : List Component) : Component → List Component
  | .here => stack
  | .up =>
    match stack with
    | .name _ :: rest => rest
    | .root :: _ => stack
    | _ => .up :: stack
  | component => component :: stack

def cleanComponents (components : List Component) : List Component :=
  (components.foldl pushClean []).reverse

/-- The path without `.`, every `..` taken back with the name before it. At the start of a relative
path `..` stays, and directly below the root it is dropped. -/
def clean (p : Path) : Path :=
  ofComponents (cleanComponents p.components)

end Unjar.Path
