import ShaderLegalizer.Text.Blank

/-!
Capability profiles. A shader-model band fixes what a module may use: features that are there or
not, and limits that are numbers or absent. Profile names are free text; a band is recognised by
its own name at the front or by its number between underscores, the most restrictive band first.
-/

set_option autoImplicit false

namespace ShaderLegalizer

inductive Band where
  | sm2
  | sm3
  | sm4
  | sm5
deriving DecidableEq, Repr, Inhabited

inductive SamplerModel where
  | legacyOnly
  | modern
deriving DecidableEq, Repr

def SamplerModel.name : SamplerModel → String
  | .legacyOnly => "legacy-only"
  | .modern => "modern"

/-- What messages call a profile. Any text will do; the profile of a band goes by its name. -/
structure Label where
  name : String
deriving DecidableEq, Repr

/-- What may be used. A limit that is absent is no limit. -/
structure Profile where
  band : Label
  dynamicBranching : Bool
  loops : Bool
  predication : Bool
  textureLimit : Option Nat
  gradients : Bool
  vertexTextureFetch : Bool
  tempRegisters : Option Nat
  instructionSlots : Option Nat
  renderTargets : Option Nat
  systemSemantics : Bool
  samplers : SamplerModel
  typedUavs : Bool
deriving DecidableEq, Repr

namespace Band

def all : List Band := [.sm2, .sm3, .sm4, .sm5]

def name : Band → String
  | .sm2 => "sm2"
  | .sm3 => "sm3"
  | .sm4 => "sm4"
  | .sm5 => "sm5"

def label (b : Band) : Label := ⟨b.name⟩

/-- The part of a conventional profile name, such as `ps_3_0`, that tells its band. -/
def version : Band → String
  | .sm2 => "_2_"
  | .sm3 => "_3_"
  | .sm4 => "_4_"
  | .sm5 => "_5_"

def fits (b : Band) (key : List Char) : Bool :=
  decide (b.name.toList <+: key) || Text.holds b.version.toList key

def ofProfileName? (raw : String) : Option Band :=
  all.find? fun b => b.fits (Text.keyword raw)

/-- The band of exactly that name, blanks around it and the case of its letters aside. -/
def ofName? (raw : String) : Option Band :=
  all.find? fun b => Text.keyword raw == b.name.toList

def profile : Band → Profile
  | .sm2 =>
    { band := label .sm2
      dynamicBranching := false
      loops := false
      predication := false
      textureLimit := some 32
      gradients := false
      vertexTextureFetch := false
      tempRegisters := some 12
      instructionSlots := some 64
      renderTargets := some 0
      systemSemantics := false
      samplers := .legacyOnly
      typedUavs := false }
  | .sm3 =>
    { band := label .sm3
      dynamicBranching := true
      loops := true
      predication := true
      textureLimit := none
      gradients := true
      vertexTextureFetch := true
      tempRegisters := some 32
      instructionSlots := some 512
      renderTargets := some 4
      systemSemantics := false
      samplers := .legacyOnly
      typedUavs := false }
  | .sm4 => modern .sm4
  | .sm5 => modern .sm5
where
  modern (b : Band) : Profile :=
    { band := b.label
      dynamicBranching := true
      loops := true
      predication := true
      textureLimit := none
      gradients := true
      vertexTextureFetch := true
      tempRegisters := none
      instructionSlots := none
      renderTargets := some 8
      systemSemantics := true
      samplers := .modern
      typedUavs := true }

end Band

def Profile.all : List Profile :=
  Band.all.map Band.profile

end ShaderLegalizer
