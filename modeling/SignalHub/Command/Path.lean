/-! The directory that a path says its file is in. -/
namespace SignalHub.Path

/-- A path read backwards, without slashes and single dots at its end. -/
def dropTrailing : List Char → List Char
  | '/' :: rest => dropTrailing rest
  | '.' :: '/' :: rest => dropTrailing rest
  | cs => cs

/-- What comes before the last component; an empty path and the root have none. -/
def parent? (path : String) : Option String :=
  let backwards := dropTrailing path.toList.reverse
  if backwards.isEmpty then none
  else
    let before := backwards.dropWhile (· != '/')
    let parent := dropTrailing before
    some (String.ofList (if parent.isEmpty && !before.isEmpty then ['/'] else parent.reverse))

end SignalHub.Path
