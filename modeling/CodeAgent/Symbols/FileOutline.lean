import CodeAgent.Symbols.Headings
import CodeAgent.Symbols.Indexer
import CodeAgent.Symbols.PythonOutline

/-! The outlines of files, by their extensions. -/
namespace CodeAgent
open CodeAgent.Text

/-- What the extension of a file says about its outline. -/
inductive OutlineFormat where
  | python
  | markdown
  | tree (language : Language)

namespace OutlineFormat

/-- The format of the files of a name. -/
def ofName? (name : String) : Option OutlineFormat :=
  let extension := lower (Path.extensionOf name)
  if extension == "py" then some python
  else if extension == "md" then some markdown
  else (Language.ofExtension? extension).map tree

end OutlineFormat

/-- Larger files have no outline. -/
def maxOutlineBytes : Int := 2 * 1024 * 1024

/-- The bytes that a file or a folder takes. -/
def sizeOnDisk : Node → Int
  | .file content _ => content.length
  | .folder _ => 4096

/-- What parses the source of a language, or says why it cannot. -/
abbrev Grammars := Language → Bytes → Except String SyntaxNode

/-- No language has a grammar. -/
def noGrammars : Grammars := fun language _ => .error ("no grammar for " ++ language.name)

/-- What is reported of a file that cannot be read. That a path holds a null character is not reported so. -/
def unreadable (p : Path) (e : FileError) : Failure :=
  if e = .nullCharacter then .file e
  else .fault (Fault.indexFailed ("Cannot read " ++ p.text ++ ": " ++ e.text) (some p.text))

/-- What is reported of a file that cannot be parsed. -/
def notParsed (p : Path) (why : String) : Failure :=
  .fault (Fault.indexFailed ("Cannot parse " ++ p.text ++ ": " ++ why) (some p.text))

/-- The outline of source in a format. -/
def OutlineFormat.outline (grammars : Grammars) (format : OutlineFormat) (p : Path) (content : Bytes) :
    Except Failure (List OutlineSymbol) :=
  let cs := Utf8.decode content
  match format with
  | markdown => .ok (markdownOutline cs)
  | python => match pythonOutline cs with
    | .ok symbols => .ok symbols
    | .error .syntactic => .error (notParsed p "invalid syntax")
    | .error .nullCharacter => .error (notParsed p "source code string cannot contain null bytes")
    | .error (.breakdown b) => .error (.breakdown b)
  | tree language => match grammars language content with
    | .ok root => .ok (root.outline language content)
    | .error why => .error (notParsed p why)

/-- The outline of the file at a path; files of no known format, and files that are too large, have no
symbols. -/
def fileOutlineBy (grammars : Grammars) (most : Int) (fs : FileSystem) (p : Path) :
    Except Failure (List OutlineSymbol) := do
  match OutlineFormat.ofName? p.name with
  | none => return []
  | some format =>
    let node ← (fs.existing p).mapError (unreadable p)
    if most < sizeOnDisk node then return []
    match node with
    | .file content _ => format.outline grammars p content
    | .folder _ => throw (unreadable p (.refused .isAFolder p))

/-- The outline of the file at a path. Syntax trees come from elsewhere, so that for their languages there is none
here. -/
def fileOutline (most : Int) (fs : FileSystem) (p : Path) : Except Failure (List OutlineSymbol) :=
  fileOutlineBy noGrammars most fs p

/-- The outliner for files of the known formats. -/
def standardOutliner : Outliner := fun fs place => fileOutline maxOutlineBytes fs place.path

end CodeAgent
