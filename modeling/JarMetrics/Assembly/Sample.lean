import JarMetrics.Assembly.Class
import JarMetrics.Metrics.Hierarchy

/-!
# A sample archive

Three types with known figures: the interface `Shape`; `Base`, which implements it with one field
and overrides `area`; and `Circle`, which extends `Base` with two fields and overrides `area` and
`toString`.
-/

namespace JarMetrics.Assembly.Sample

/-- The flag of public types and members. -/
def publicFlag : UInt16 := 0x0001

/-- The interface. -/
def shape : Class :=
  (Class.declare (publicFlag ||| ClassFile.interfaceFlag ||| ClassFile.abstractFlag)
    "com/example/Shape" rootType []).method
    (publicFlag ||| ClassFile.abstractFlag) "area" "()D" none

/-- A constructor that calls that of the superclass. -/
def constructor (superName : String) : List Piece :=
  [.raw 0x2a [], .invoke 0xb7 superName "<init>" "()V", .raw 0xb1 []]

/-- Declare the methods one after the other. -/
def withMethods (c : Class) (methods : List (String × String × List Piece)) : Option Class :=
  methods.foldlM (fun c (name, descriptor, pieces) => c.methodOf publicFlag name descriptor pieces)
    c

/-- The class that implements the interface. -/
def base : Option Class :=
  withMethods
    ((Class.declare publicFlag "com/example/Base" rootType ["com/example/Shape"]).field 0 "id" "I")
    [("<init>", "()V", constructor rootType), ("area", "()D", [.raw 0x0e [], .raw 0xaf []])]

/-- The class that extends it. -/
def circle : Option Class :=
  withMethods
    (((Class.declare publicFlag "com/example/Circle" "com/example/Base" []).field
        0 "radius" "D").field 0
      "label" "Ljava/lang/String;")
    [("<init>", "()V", constructor "com/example/Base"),
      ("area", "()D",
        [.raw 0x03 [], .variableAt 0x36 1, .variableAt 0x15 1, .jump 0x99 3,
          .raw 0x0e [], .raw 0xaf []]),
      ("toString", "()Ljava/lang/String;",
        [.typeUse 0xbb "java/lang/StringBuilder",
          .invoke 0xb7 "java/lang/StringBuilder" "<init>" "()V", .raw 0xb0 []])]

/-- The entries of the archive in the order of their names. -/
def entries : List (String × List UInt8) :=
  [("META-INF/MANIFEST.MF", Utf8.encode "Manifest-Version: 1.0\n")] ++
    (base.map fun c => ("com/example/Base.class", c.bytes)).toList ++
    (circle.map fun c => ("com/example/Circle.class", c.bytes)).toList ++
    [("com/example/Shape.class", shape.bytes)]

/-- Put a class file that breaks off behind its first bytes in place of an entry, or beside the
others. -/
def corrupt (entries : List (String × List UInt8)) (name : String) : List (String × List UInt8) :=
  entries.filter (·.1 != name) ++ [(name, [0xca, 0xfe, 0xba, 0xbe, 0x00])]

end JarMetrics.Assembly.Sample
