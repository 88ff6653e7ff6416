import GoApi.Build.Target

/-!
# Which packages take part
-/

namespace GoApi.Discovery

/-- Which packages of a code base are compared, and for which platform. -/
structure Selection where
  /-- Whether packages below an `internal` directory take part. -/
  includeInternal : Bool := false
  /-- Patterns of paths to leave out. -/
  ignore : List String := []
  /-- Whether symbolic links are followed. -/
  followLinks : Bool := false
  /-- The platform that packages are loaded for. -/
  target : Build.Target := {}
  deriving DecidableEq, Repr, Inhabited

end GoApi.Discovery
