import MiniProgram.Json.Basic

/-!
Source maps that carry the source of a module without mapping segments.
-/

namespace MiniProgram

namespace SourceMap

/-- The map of a module to its own source, relative to the project root. -/
def identity (id source : Text) : Text :=
  Json.render (.object [
    ("version", .number "3"),
    ("sourceRoot", .string "/"),
    ("sources", .array [.string id]),
    ("sourcesContent", .array [.string source]),
    ("names", .array []),
    ("mappings", .string [])])

end SourceMap

end MiniProgram
