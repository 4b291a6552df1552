import Lifecycle.Assembly

/- Assemblies in any order of calls, resets and the moments at which they are carried out.

   A call only starts an assembly. It is carried out by itself a moment later, once, with the environment
   that is there by then; what happens in between is up to the process. -/
namespace Lifecycle

/-- What happens to the assemblies of a process. -/
inductive AssemblyEvent where
  | called (options : AssemblyOptions)
  | completed (environment : List (Text × Text)) (id : Nat)
  | reset
  | registered (c : Configuration)
  | substituted (role : Role)

def AssemblyEvent.options? : AssemblyEvent → Option AssemblyOptions
  | .called options => some options
  | _ => none

namespace Assembly

/-- Carry out an assembly unless it was carried out before. -/
def complete (a : Assembly) (environment : List (Text × Text)) (id : Nat) : Assembly :=
  if a.settled.any (·.1 == id) then a else a.carryOut environment id

def step (a : Assembly) : AssemblyEvent → Assembly
  | .called options => (a.call options).1
  | .completed environment id => a.complete environment id
  | .reset => a.reset
  | .registered c => a.register c
  | .substituted role => a.substitute role

def after (a : Assembly) (history : List AssemblyEvent) : Assembly := history.foldl step a

/-- What the calls in a history are answered with. -/
def answers (a : Assembly) : List AssemblyEvent → List Answer
  | [] => []
  | .called options :: rest => (a.call options).2 :: answers (a.call options).1 rest
  | e :: rest => answers (a.step e) rest

end Assembly

end Lifecycle
