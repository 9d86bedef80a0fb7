/-!
# Profiles

An ensemble has one of three shapes: a pair of linked nodes, a cube of eight nodes in two chassis,
or a hypercube of one, two or four partitions of eight. A request names one of them or leaves the
choice to the number of members.
-/

namespace MeshFormation

inductive Profile where
  | pair
  | cube
  | hypercube
deriving DecidableEq

def Profile.name : Profile → String
  | pair => "pair"
  | cube => "cube"
  | hypercube => "hypercube"

/-- The profile that the embedding application asks for. -/
inductive ProfileRequest where
  | auto
  /-- The profile is forced. -/
  | exact (profile : Profile)
deriving DecidableEq

/-- Reads a request, ASCII letters in either case. A name that is none of the four is handed back
in lower case. -/
def ProfileRequest.ofName (name : String) : Except String ProfileRequest :=
  match name.map Char.toLower with
  | "auto" => .ok .auto
  | "pair" => .ok (.exact .pair)
  | "cube" => .ok (.exact .cube)
  | "hypercube" => .ok (.exact .hypercube)
  | other => .error other

end MeshFormation
