import Countersign.Text.Blank

/-!
# Allowed paths

Patterns for paths that need no signature. Pattern and path are compared segment
by segment after their outer slashes are removed: `*` stands for any one
segment, and `**` for all the rest, even for nothing.
-/

set_option autoImplicit false

namespace Countersign.AllowList

def segments (path : String) : List (List Char) :=
  (Text.trimBy (· = '/') path.toList).splitOn '/'

def matchSegments : List (List Char) → List (List Char) → Bool
  | [], [] => true
  | [], _ :: _ => false
  | p :: ps, ss =>
    if p = ['*', '*'] then true
    else
      match ss with
      | [] => false
      | s :: ss => (p = ['*'] || p = s) && matchSegments ps ss

def pathMatches (pattern path : String) : Bool := matchSegments (segments pattern) (segments path)

def allows (patterns : List String) (path : String) : Bool := patterns.any (pathMatches · path)

end Countersign.AllowList
