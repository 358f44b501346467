/-!
# Catalog errors

What can be wrong with a catalog or with the use of one, and the wording of each case.
-/

namespace HopQuery

/-- The two kinds of document that describe names: a catalog and a table of renaming rules. -/
inductive CatalogDocument
  | catalog
  | rules
  deriving DecidableEq, Repr

/-- Why a catalog cannot be read, built or used. -/
inductive CatalogError
  /-- The kind has no entry. -/
  | unknownKind (kind : String)
  /-- The kind is listed twice. -/
  | duplicateKind (kind : String)
  /-- A kind, field or filter, as told by `role`, does not follow the name grammar. -/
  | invalidName (name role : String)
  /-- The filter is listed twice for the kind. -/
  | duplicateFilter (kind filter : String)
  /-- The field is listed twice for the kind. -/
  | duplicateField (kind field : String)
  /-- The file cannot be read; the detail names it and the cause. -/
  | unreadable (detail : String)
  /-- The text of the file is no document of that kind. -/
  | malformed (document : CatalogDocument)
  deriving DecidableEq, Repr

namespace CatalogError

/-- The error for an unknown kind together with what was being done. -/
def unknownKindWhile (kind context : String) : CatalogError :=
  .unknownKind (kind ++ "\n  Context: " ++ context)

/-- The wording of a catalog error. -/
def message : CatalogError → String
  | .unknownKind kind => s!"No catalog entry found for entity kind `{kind}`"
  | .duplicateKind kind => s!"Entity kind `{kind}` is defined more than once"
  | .invalidName name role => s!"Invalid GraphQL name `{name}` ({role})"
  | .duplicateFilter kind filter => s!"Filter `{filter}` of kind `{kind}` is listed more than once"
  | .duplicateField kind field => s!"Field `{field}` of kind `{kind}` is listed more than once"
  | .unreadable detail => s!"Failed to read catalog file: {detail}"
  | .malformed .catalog => "Failed to parse catalog: "
  | .malformed .rules => "Failed to parse catalog: sanitization rules: "

end CatalogError

end HopQuery
