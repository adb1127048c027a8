import JarMetrics.Graph.Rows

/-!
# Statements to a graph store

The statements by which an archive is put into a graph store, with their texts and parameters.
-/

namespace JarMetrics.Graph

/-- A statement to the store. -/
inductive Statement
  /-- Keep an index of archives by name. -/
  | jarIndex
  /-- Keep an index of classes by key. -/
  | classIndex
  /-- Remove the classes of an archive. -/
  | clear (jar : String)
  /-- Put in an archive. -/
  | jar (report : ArchiveReport)
  /-- Put in classes. -/
  | classes (batch : List ClassRow)
  /-- Put in edges to super classes. -/
  | extensions (batch : List EdgeRow)
  /-- Put in edges to interfaces. -/
  | implementations (batch : List EdgeRow)

namespace Statement

/-- The text that removes the classes of an archive. -/
def clearText : String := "MATCH (c:JvmClass \x7bjar: $jar\x7d) DETACH DELETE c"

/-- The text that puts in an archive. -/
def jarText : String :=
  "MERGE (j:Jar \x7bname: $row.name\x7d)\n" ++
  "\t\tSET j.total_classes = $row.total_classes, j.total_interfaces = $row.total_interfaces,\n" ++
  "\t\t    j.max_depth = $row.max_depth, j.average_depth = $row.average_depth,\n" ++
  "\t\t    j.abc_magnitude = $row.abc_magnitude,\n" ++
  "\t\t    j.average_overridden_methods = $row.average_overridden_methods,\n" ++
  "\t\t    j.average_fields_per_class = $row.average_fields_per_class"

/-- The text that puts in classes. -/
def classesText : String :=
  "UNWIND $batch AS row\n" ++
  "\t\tMERGE (c:JvmClass \x7bkey: row.key\x7d)\n" ++
  "\t\tSET c.name = row.name, c.jar = row.jar, c.interface = row.interface,\n" ++
  "\t\t    c.depth = row.depth, c.overridden_methods = row.overrides,\n" ++
  "\t\t    c.fields = row.fields, c.methods = row.methods,\n" ++
  "\t\t    c.assignments = row.a, c.branches = row.b, c.conditions = row.c,\n" ++
  "\t\t    c.abc_magnitude = row.abc\n" ++
  "\t\tWITH c, row\n" ++
  "\t\tMATCH (j:Jar \x7bname: row.jar\x7d)\n" ++
  "\t\tMERGE (c)-[:IN_JAR]->(j)"

/-- The text that puts in edges: the letter of the other end, and the name of the edges. -/
def edgeText (letter name : String) : String :=
  "UNWIND $batch AS row\n\t\tMATCH (c:JvmClass \x7bkey: row.from\x7d), (" ++ letter ++
    ":JvmClass \x7bkey: row.to\x7d)\n\t\tMERGE (c)-[:" ++ name ++ "]->(" ++ letter ++ ")"

/-- The text that puts in edges to super classes. -/
def extensionsText : String := edgeText "s" "EXTENDS"

/-- The text that puts in edges to interfaces. -/
def implementationsText : String := edgeText "i" "IMPLEMENTS"

/-- The text of a statement. -/
def text : Statement → String
  | .jarIndex => "CREATE INDEX jar_name IF NOT EXISTS FOR (n:Jar) ON (n.name)"
  | .classIndex => "CREATE INDEX jvm_class_key IF NOT EXISTS FOR (n:JvmClass) ON (n.key)"
  | .clear _ => clearText
  | .jar _ => jarText
  | .classes _ => classesText
  | .extensions _ => extensionsText
  | .implementations _ => implementationsText

/-- The parameters of a statement. -/
def parameters : Statement → Option Json
  | .jarIndex => none
  | .classIndex => none
  | .clear name => some (.object [("jar", .string name)])
  | .jar report => some (.object [("row", jarRow report)])
  | .classes batch => some (.object [("batch", .array (batch.map ClassRow.toJson))])
  | .extensions batch => some (.object [("batch", .array (batch.map EdgeRow.toJson))])
  | .implementations batch => some (.object [("batch", .array (batch.map EdgeRow.toJson))])

end Statement

end JarMetrics.Graph
