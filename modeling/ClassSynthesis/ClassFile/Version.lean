/-!
# ClassSynthesis.ClassFile.Version

The version of the class file format that code is generated for, and the two thresholds that
change what `ldc` may push.
-/

namespace ClassSynthesis

structure ClassFileVersion where
  major : UInt16
  minor : UInt16
  deriving DecidableEq

namespace ClassFileVersion

def ofMajor (major : UInt16) : ClassFileVersion := ⟨major, 0⟩

/-- Code is generated for version 52 unless a version is given. -/
def standard : ClassFileVersion := ofMajor 52

instance : Inhabited ClassFileVersion := ⟨standard⟩

/-- `ldc` pushes class literals from version 49 on. -/
def supportsClassConstants (v : ClassFileVersion) : Bool := 49 ≤ v.major

/-- `ldc` pushes method types from version 51 on. -/
def supportsMethodTypes (v : ClassFileVersion) : Bool := 51 ≤ v.major

def text (v : ClassFileVersion) : String :=
  toString v.major.toNat ++ "." ++ toString v.minor.toNat

/-- The major version decides; the minor version breaks ties. -/
def order (v w : ClassFileVersion) : Ordering :=
  (compare v.major w.major).then (compare v.minor w.minor)

end ClassFileVersion

end ClassSynthesis
