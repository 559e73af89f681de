import Unjar.ClassFile.Name

namespace Unjar.ClassFile

/-- Where the product of a staged file goes: the staging directory is exchanged for the output root
and the extension `class` for `java`. A file outside staging has no output. -/
def outputPath (file staging out : Path) : Option Path :=
  (file.stripPrefix? staging).map fun relative =>
    let target := out.join relative
    if target.extension = some classExtension then target.setExtension sourceExtension else target

end Unjar.ClassFile
