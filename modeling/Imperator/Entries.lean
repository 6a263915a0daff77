import Imperator.Dispatch
import Imperator.SelectCpu
import Imperator.System

/-!
# Every entry point

The machine of all tasks, with everything the program can be entered by: the callbacks of
`Callback`, the choice of a CPU, the dispatch, the two halves of `imperator_init_task`, and the
probes that mark lock holders. The entries come in any order and find any task on any CPU, so what
holds along every run here holds along the runs the kernel makes.

To the context of a task an entry is always an event of its own life, so that nothing is proved
about contexts again.

## Main definitions

* `Entry`, `System.enter` — the machine
* `Entry.inserts` — the calls of `scx_bpf_dsq_insert` and `scx_bpf_dsq_insert_vtime`

## Main results

* `reachable_of_enters` — every context of the machine is that of a life of a task
-/

namespace Imperator

open Transition

variable {τ : Type*}

/-- The entry points. -/
inductive Entry (τ : Type*)
  | callback (cb : Callback τ)
  /-- `imperator_select_cpu` -/
  | selectCpu (p : τ) (env : SelectEnv)
  /-- `imperator_dispatch`, with the queues and costs it finds and the tasks its CPU may run -/
  | dispatch (cpu : Cpu) (etd : Llc → Llc → U8) (allowed : τ → Bool) (dsq : Llc → List (Queued τ))
  /-- `imperator_init_task`; `parent` is the task `real_parent` -/
  | initTask (p : τ) (fork : Bool) (prio : U32) (parent : τ)
  /-- `set_lock_holder` and `clear_lock_holder` -/
  | lockHolder (p : τ) (held : Bool)

/-- The calls of `scx_bpf_dsq_insert` and `scx_bpf_dsq_insert_vtime` an entry makes on a CPU. An
enqueue always makes one. -/
def Entry.inserts (ro : Rodata) (hy : HybridRodata) (cpu : Cpu) (s : System τ) : Entry τ → ℕ
  | .callback (.enqueue _ env) => if env.cpu = cpu then 1 else 0
  | .selectCpu p env =>
    if env.cpu = cpu then (imperatorSelectCpu ro hy env (s.ctx p) s.bss).insert.toList.length else 0
  | _ => 0

variable [DecidableEq τ] {ro : Rodata} {hy : HybridRodata} {s : System τ} {e : Entry τ}
  {es : List (Entry τ)} {p : τ}

/-- The system after an entry. -/
def System.enter (ro : Rodata) (hy : HybridRodata) (s : System τ) : Entry τ → System τ
  | .callback cb => s.next ro cb
  | .selectCpu p env =>
    let out := imperatorSelectCpu ro hy env (s.ctx p) s.bss
    { s with ctx := Function.update s.ctx p out.ctx, bss := out.bss }
  | .dispatch cpu etd allowed dsq =>
    let out := imperatorDispatch ro etd allowed cpu dsq s.bss.llcNonempty
    { s with bss := { s.bss with llcNonempty := out.nonempty } }
  | .initTask p fork prio parent =>
    { s with
      ctx := Function.update s.ctx p (imperatorInitTask ro fork prio (s.ctx parent) (s.ctx p)) }
  | .lockHolder p held =>
    { s with ctx := Function.update s.ctx p ((s.ctx p).map (lockHolderCtx held)) }

/-- **To a context an entry is nothing, or an event of its life.** -/
theorem enter_ctx (ro : Rodata) (hy : HybridRodata) (s : System τ) (e : Entry τ) (p : τ) :
    (s.enter ro hy e).ctx p = s.ctx p ∨
      ∃ op : TaskOp, (s.enter ro hy e).ctx p = op.apply ro (s.ctx p) := by
  have hupdate : ∀ (q : τ) (ctx : Option TaskCtx) (op : TaskOp), ctx = op.apply ro (s.ctx q) →
      Function.update s.ctx q ctx p = s.ctx p ∨
        ∃ op : TaskOp, Function.update s.ctx q ctx p = op.apply ro (s.ctx p) := by
    rintro q _ op rfl
    rcases eq_or_ne p q with rfl | hne
    · exact Or.inr ⟨op, Function.update_self _ _ _⟩
    · exact Or.inl (Function.update_of_ne hne _ _)
  cases e with
  | callback cb => exact hupdate cb.task _ (cb.taskOp s.bss) rfl
  | selectCpu q env =>
    exact hupdate q _ (.selectCpu env.irqContext env.search.2) (imperatorSelectCpu_ctx _ _ _ _ _)
  | dispatch => exact Or.inl rfl
  | initTask q fork prio parent => exact hupdate q _ (.initTask fork prio (s.ctx parent)) rfl
  | lockHolder q held => exact hupdate q _ (.lockHolder held) rfl

/-- **Every context is that of a life.** -/
theorem reachable_of_enters {c : TaskCtx}
    (h : Run (ofNext (System.enter ro hy)) (System.init ro) es s) (hc : s.ctx p = some c) :
    Reachable ro c := by
  have hinit : TaskRun ro anyOp [] ((System.init ro : System τ).ctx p) := Run.nil
  have hlife : ∃ ops, TaskRun ro anyOp ops (s.ctx p) := by
    refine Run.invariant (I := fun s => ∃ ops, TaskRun ro anyOp ops (s.ctx p)) ?_ h ⟨[], hinit⟩
    rintro s e _ ⟨ops, hops⟩ rfl
    rcases enter_ctx ro hy s e p with hsame | ⟨op, hop⟩
    · exact ⟨ops, hsame ▸ hops⟩
    · exact ⟨_, Run.snoc hops ⟨trivial, hop⟩⟩
  rw [hc] at hlife
  exact hlife

end Imperator
