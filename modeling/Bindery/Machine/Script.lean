import Bindery.Machine.Basic

/-!
Scripts: programs whose behaviour is fixed beforehand. They stand in for tools.
-/

namespace Bindery

inductive Ending where
  | exit (status : Nat)
  | killed
  deriving DecidableEq, Repr

structure Script where
  /-- What is added to the file that the last argument names. -/
  append : String := ""
  /-- Whether the arguments are printed, each in brackets. -/
  echo : Bool := false
  output : String := ""
  complaints : String := ""
  ending : Ending := .exit 0
  deriving Repr

namespace Script

def edit (s : Script) (arguments : List String) (fs : FileSystem) : FileSystem :=
  match arguments.getLast? with
  | none => fs
  | some path => if s.append.isEmpty then fs else ((fs.appendText path s.append).toOption).getD fs

def finish (s : Script) (arguments : List String) : Finish where
  status := match s.ending with
    | .exit n => some (n % 256)
    | .killed => none
  output := (if s.echo then String.join (arguments.map fun a => "[" ++ a ++ "]") else "") ++
    s.output
  complaints := s.complaints

def program (s : Script) : Program :=
  .run fun call fs => (s.finish call.arguments, s.edit call.arguments fs)

end Script

end Bindery
