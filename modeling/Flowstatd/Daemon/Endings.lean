import Flowstatd.Daemon.Signals

/-!
# How the main process ends

Only `Exits` saves the table before it exits. The other ends of `main` are failures: of `accept`, of
`gzopen` in an export of its own, and of the configuration to be JSON when it is reloaded.
-/

namespace Flowstatd

open Framework

/-- Since the start-up, the table has been exported as it is. -/
def Process.saved (p : Process) : Bool := !p.inLoop || p.exported

/-- The statements that may end a process for themselves. -/
def Stmt.mayEnd : Stmt → Bool
  | .importRecord _ | .exit => true
  | _ => false

/-- `main` will export its table before it ends, failures apart. -/
structure Process.Saves (p : Process) : Prop where
  live : p.live
  handlers : ∀ h ∈ p.handlers, h = .frees ∨ h = .leaves → p.exported
  program : (p.inLoop = false ∧ ∃ d, p.program = [.importRecord false,.returns d]) ∨
    ∀ st ∈ p.program, st.mayEnd = false
  alarmed : p.alarmed = false

/-- What holds of `main` as long as nothing has been lost. -/
def Process.Kept (p : Process) : Prop := p.Saves ∨ p.live = false ∧ p.saved

section Reload

end Reload

section Main

variable {p : Process} {localtime : Int → Tm} {qsort : List HostFlow → List HostFlow} {x : Answers}

end Main

section Events

variable {localtime : Int → Tm} {qsort : List HostFlow → List HostFlow}

private theorem Group.Starts.kept {s : Group} (h : Group.Starts localtime s) : s.main.Kept := by
  cases h with
  | intro =>
    exact .inl ⟨rfl,fun _ hh => absurd hh List.not_mem_nil,.inl ⟨rfl,_,rfl⟩,rfl⟩

end Events

end Flowstatd
