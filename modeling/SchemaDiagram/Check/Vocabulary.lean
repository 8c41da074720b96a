import SchemaDiagram.Text.Basic

/-! # Vocabulary

The words that checks know, and common misspellings with their corrections.
-/
namespace SchemaDiagram

/-- Types that are accepted without a warning; an earlier one is suggested before a later one. -/
def knownTypes : List String :=
  ["int", "integer", "tinyint", "smallint", "mediumint", "bigint", "serial", "smallserial", "bigserial",
   "float", "double", "real", "decimal", "numeric", "number", "money", "bool", "boolean", "bit", "char",
   "nchar", "varchar", "nvarchar", "text", "tinytext", "mediumtext", "longtext", "string", "uuid", "guid",
   "date", "time", "timetz", "datetime", "datetime2", "timestamp", "timestamptz", "interval", "year", "json",
   "jsonb", "xml", "blob", "binary", "varbinary", "bytea", "enum", "inet", "cidr", "macaddr", "point",
   "geometry", "geography", "image"]

def typeTypos : List (String × String) :=
  [("strng", "string"), ("sting", "string"), ("stirng", "string"), ("interger", "integer"),
   ("integr", "integer"), ("intger", "integer"), ("itn", "int"), ("nit", "int"), ("varchr", "varchar"),
   ("varhcar", "varchar"), ("vachar", "varchar"), ("boolen", "boolean"), ("bolean", "boolean"),
   ("tiemstamp", "timestamp"), ("timestmp", "timestamp"), ("timestap", "timestamp"),
   ("datetiem", "datetime"), ("dat", "date"), ("txt", "text"), ("tetx", "text"), ("flaot", "float"),
   ("flot", "float"), ("decmial", "decimal"), ("dobule", "double"), ("doubel", "double"),
   ("jsno", "json"), ("uudi", "uuid")]

/-- Words that start a statement at top level or a block in a table. -/
def keywordTypos : List (String × String) :=
  [("tabel", "Table"), ("tbale", "Table"), ("talbe", "Table"), ("tabl", "Table"), ("tble", "Table"),
   ("tables", "Table"), ("reff", "Ref"), ("refs", "Ref"), ("rf", "Ref"), ("enm", "Enum"),
   ("enume", "Enum"), ("eunm", "Enum"), ("projet", "Project"), ("porject", "Project"),
   ("indexs", "indexes"), ("indexe", "indexes"), ("idexes", "indexes"), ("indxes", "indexes"),
   ("ntoe", "Note"), ("noet", "Note"), ("nots", "Note")]

/-- Settings of a field that are a word of their own. -/
def flagSettings : List String :=
  ["pk", "primary key", "null", "not null", "unique", "increment", "auto_increment"]

/-- What may happen to a row whose target is deleted or updated. -/
def referentialActions : List String := ["cascade", "restrict", "set null", "set default", "no action"]

def settingTypos : List (String × String) :=
  [("primarykey", "primary key"), ("primary_key", "primary key"), ("primay key", "primary key"),
   ("pirmary key", "primary key"), ("primary", "primary key"), ("p k", "pk"), ("notnull", "not null"),
   ("not_null", "not null"), ("not nul", "not null"), ("nto null", "not null"), ("non null", "not null"),
   ("nullable", "null"), ("unqiue", "unique"), ("uniqe", "unique"), ("uniq", "unique"),
   ("incremnt", "increment"), ("incremet", "increment"), ("autoincrement", "increment"),
   ("auto increment", "increment"), ("defualt", "default:"), ("deafult", "default:"),
   ("dafault", "default:"), ("ntoe", "note:"), ("noet", "note:"), ("references", "ref:"),
   ("reference", "ref:"), ("refs", "ref:"), ("ondelete", "delete:"), ("on delete", "delete:"),
   ("onupdate", "update:"), ("on update", "update:")]

def actionTypos : List (String × String) :=
  [("cascde", "cascade"), ("cacade", "cascade"), ("casade", "cascade"), ("restirct", "restrict"),
   ("restric", "restrict"), ("setnull", "set null"), ("set_null", "set null"),
   ("setdefault", "set default"), ("noaction", "no action")]

def isAmong (words : List String) (word : Text) : Bool := words.any (·.toList == word)

/-- The correction of a misspelling that is the whole word. -/
def exactCorrection (typos : List (String × String)) (word : Text) : Option String :=
  (typos.find? fun (typo, _) => typo.toList == word).map Prod.snd

/-- The correction of a misspelling that is the whole word, or else of the first one that stands in
the word. -/
def correction (typos : List (String × String)) (word : Text) : Option String :=
  (exactCorrection typos word).or
    ((typos.find? fun (typo, _) => Text.hasPart typo.toList word).map Prod.snd)

/-- How many characters two words share from their start. -/
def sharedLength : Text → Text → Nat
  | a :: s, b :: t => if a = b then sharedLength s t + 1 else 0
  | _, _ => 0

/-- The known type that shares the longest start with a word, at least three characters; the first
one of several. -/
def nearestType (word : Text) : Option String :=
  (knownTypes.foldl (fun best candidate =>
    let shared := sharedLength word candidate.toList
    match best with
    | some (_, most) => if 3 ≤ shared ∧ most < shared then some (candidate, shared) else best
    | none => if 3 ≤ shared then some (candidate, shared) else none) none).map Prod.fst

end SchemaDiagram
