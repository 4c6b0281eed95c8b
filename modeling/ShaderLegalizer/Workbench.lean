import ShaderLegalizer.Legalize
import ShaderLegalizer.Wire.ModuleText

set_option autoImplicit false

namespace ShaderLegalizer

inductive Part where
  | entry (e : EntryPoint)
  | values (vs : List Value)
  | resource (r : Resource)
  | function (f : Function)
  | diagnostic (d : Diagnostic)
deriving DecidableEq, Repr

def Module.add (m : Module) : Part → Module
  | .entry e => m.withEntry e
  | .values vs => m.addValues vs
  | .resource r => m.addResource r
  | .function f => m.addFunction f
  | .diagnostic d => m.addDiagnostic d

inductive Task where
  | reread
  | setProfile (profile : String)
  | setFunctions (functions : List Function)
  | find (name : String)
  | validate (p : Profile)
  | check
  | lower (p : Profile)
  /-- Legalize, with the structural check or with one that has this answer. -/
  | legalize (override : Option String) (checked : Option (List Diagnostic))
deriving DecidableEq, Repr

inductive Step where
  | start (profile : Option String)
  | add (part : Part)
  | finish
  | load (text : String)
  | work (task : Task)
deriving DecidableEq, Repr

inductive Reply where
  | done
  | noDraft
  | noModule
  | unreadable (e : ReadError)
  | module (m : Module)
  | function (f : Option Function)
  | diagnostics (ds : List Diagnostic)
  | lowered (l : Lowered)
  | legalized (o : Outcome)
deriving DecidableEq, Repr

structure Workbench where
  draft : Option Module := none
  module : Option Module := none
deriving DecidableEq, Repr, Inhabited

namespace Task

def checker : Option (List Diagnostic) → Module → List Diagnostic
  | none => Module.check
  | some ds => fun _ => ds

def run (m : Module) : Task → Module × Reply
  | .reread =>
    match Module.ofText m.toText with
    | .ok m' => (m', .module m')
    | .error e => (m, .unreadable e)
  | .setProfile p => (m.withProfile p, .module (m.withProfile p))
  | .setFunctions fs => (m.withFunctions fs, .module (m.withFunctions fs))
  | .find name => (m, .function (m.function? name))
  | .validate p => (m, .diagnostics (m.validate p))
  | .check => (m, .diagnostics m.check)
  | .lower p => ((m.lower p).module, .lowered (m.lower p))
  | .legalize override checked =>
    let o := legalizeWith (checker checked) { module := m, override := override }
    (o.module, .legalized o)

end Task

namespace Workbench

def step (w : Workbench) : Step → Workbench × Reply
  | .start profile => ({ w with draft := some { profile := profile } }, .done)
  | .add part =>
    match w.draft with
    | some d => ({ w with draft := some (d.add part) }, .done)
    | none => (w, .noDraft)
  | .finish =>
    match w.draft with
    | some d => ({ draft := none, module := some d }, .module d)
    | none => (w, .noDraft)
  | .load text =>
    match Module.ofText text with
    | .ok m => ({ w with module := some m }, .module m)
    | .error e => (w, .unreadable e)
  | .work task =>
    match w.module with
    | some m => ({ w with module := some (task.run m).1 }, (task.run m).2)
    | none => (w, .noModule)

def run (w : Workbench) : List Step → List Reply
  | [] => []
  | s :: steps => (w.step s).2 :: (w.step s).1.run steps

end Workbench

end ShaderLegalizer
