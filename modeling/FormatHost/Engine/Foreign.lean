import FormatHost.Engine

/-! # Engines in shared libraries

A library exports five functions whose names share a stem. The library is looked for when the
engine starts, so that one that cannot be used fails the start. A call that hands back no result
has failed with the status it reports; any result is taken as the library describes it.
-/

namespace FormatHost

/-- What a foreign formatting function hands back. -/
structure Reply where
  status : Int
  /-- The pointer and length that the library gives for its result, unless that is null. -/
  result : Option Buffer
deriving DecidableEq

/-- The functions of a foreign engine, as far as they can be observed. -/
structure EntryPoints (σ : Type) where
  init : σ → Int × σ
  formatBuffer : σ → Buffer → Reply × σ

structure Library (σ : Type) where
  /-- Whether a name is exported. -/
  exports : String → Bool
  /-- The functions whose names start with a stem. -/
  entryPoints : String → EntryPoints σ

/-- Finds libraries by path; the reason is the system's if there is none. -/
abbrev Loader (σ : Type) := String → Except String (Library σ)

namespace Library

/-- What the functions are called behind the stem, in the order they are looked up. -/
def functionNames : List String :=
  ["init", "format_buffer", "result_ptr", "result_len", "result_free"]

def symbol (stem name : String) : String :=
  stem ++ "_" ++ name

/-- The functions of a library, or the first that is missing. -/
def link {σ : Type} (library : Library σ) (stem : String) : Except String (EntryPoints σ) :=
  match functionNames.find? fun name => !library.exports (symbol stem name) with
  | some name => .error ("missing symbol `" ++ symbol stem name ++ "`: undefined symbol")
  | none => .ok (library.entryPoints stem)

end Library

namespace Engine

/-- The stem of the function names unless another is given. -/
def standardStem : String := "fmtbridge"

/-- The functions that a loader finds under a path and a stem. -/
def load {σ : Type} (loader : Loader σ) (path stem : String) : Except String (EntryPoints σ) :=
  match loader path with
  | .error reason => .error ("cannot load " ++ path ++ ": " ++ reason)
  | .ok library => library.link stem

/-- The bytes of a foreign result. A negative length counts as zero, and null has no bytes. -/
def resultBytes (buffer : Buffer) : Bytes :=
  (buffer.data.getD []).take buffer.length.toNat

/-- What a reply of a foreign function means. -/
def ofReply (reply : Reply) : Except FormatFailure Result :=
  match reply.result with
  | some buffer => .ok ⟨resultBytes buffer, true⟩
  | none => .error (.ofStatus reply.status)

def foreign {σ : Type} (loader : Loader σ) (path : String) (stem : Option String) : Engine σ where
  name := "dylib"
  start s :=
    match load loader path (stem.getD standardStem) with
    | .error reason => (.error (.startFailed reason), s)
    | .ok entryPoints =>
      let (code, s) := entryPoints.init s
      if code = 0 then (.ok (), s)
      else
        (.error (.startFailed (Library.symbol (stem.getD standardStem) "init" ++ " returned " ++
          toString code)), s)
  format s source :=
    match load loader path (stem.getD standardStem) with
    | .error _ => (.error (.engine "foreign engine not loaded"), s)
    | .ok entryPoints =>
      let (reply, s) := entryPoints.formatBuffer s (.ofBytes source)
      (ofReply reply, s)
  render s _ _ := (.error noTrees, s)

end Engine

end FormatHost
