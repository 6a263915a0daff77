import Imperator.Entries
import Imperator.Mailbox
import Imperator.TargetSelection

/-!
# The hint remembers the last request

Requesting a frequency is expensive, so a tick does it only if the target has changed. What was
requested last is kept in one byte of the mailbox, too small for a target: it holds the number of
the bucket of eight the target is in, plus one. Zero is left for a CPU that was never asked.

Two blocks share the byte, and both write it exactly when they make the call. So in every run it is
the code of the last request, as long as the targets are in range: the code of 2040 would be zero
again, and the CPU would look as if it was never asked.

## Main definitions

* `requestedAfter` — the last request of every CPU, beside the machine
* `HintFaithful` — the hints are the codes of the last requests

## Main results

* `imperatorTick_dsqHint` — the store of a tick, beside the call `imperatorTick_cpuperf`
* `HintFaithful.enter` — one entry
* `dvfs_cache_faithful` — every run
-/

namespace Imperator

open Transition

variable {τ : Type*} {ro : Rodata} {hy : HybridRodata} {env : TickEnv} {c : TaskCtx} {bss : Bss}
  {cpu i : Cpu} {t : Tier} {target last : U32}

/-! ### A tick -/

/-- Storing to the mailbox of a CPU stores its hint. -/
theorem Bss.setMailbox_dsqHint (cpu : Cpu) (m : MailboxEntry) (bss : Bss) :
    (bss.setMailbox cpu m).dsqHint = Function.update bss.dsqHint cpu m.dsqHint :=
  Function.comp_update MailboxEntry.dsqHint bss.megaMailbox cpu m

/-- A store that keeps the hint leaves all hints alone. -/
theorem Bss.setMailbox_dsqHint_of_eq {m : MailboxEntry} (h : m.dsqHint = bss.dsqHint cpu) :
    (bss.setMailbox cpu m).dsqHint = bss.dsqHint := by
  rw [setMailbox_dsqHint, h, Function.update_eq_self]

/-- After the block the hint is the code of the target, whether it was stored or found. -/
theorem mailboxDvfs_dsqHint (cpu : Cpu) (t : Tier) (target : U32) (bss : Bss) :
    (mailboxDvfs cpu t target bss).1.dsqHint
      = Function.update bss.dsqHint cpu (dsqHintEncode target) := by
  rw [mailboxDvfs_bss]
  exact Bss.setMailbox_dsqHint cpu _ bss

theorem preemptSelf_dsqHint (cpu : Cpu) (t : Tier) (c : TaskCtx) (bss : Bss) :
    (preemptSelf cpu t c bss).bss.dsqHint = bss.dsqHint :=
  Bss.setMailbox_dsqHint_of_eq rfl

/-- **The store of a tick.** The hint of its CPU is the code of the target afterwards, and no other
hint is written. -/
theorem imperatorTick_dsqHint (ro : Rodata) (env : TickEnv) (c : TaskCtx) (bss : Bss) :
    (imperatorTick ro env (some c) bss).bss.dsqHint
      = match dvfsTarget ro env c bss with
        | some target => Function.update bss.dsqHint env.cpu (dsqHintEncode target)
        | none => bss.dsqHint := by
  rw [dvfsTarget]
  generalize hr : imperatorTick ro env (some c) bss = r
  have hexit := hr ▸ tickExit ro env c bss
  cases hexit with
  | stamped hzero => rw [if_neg fun h : PastSlice env c => h.1 hzero]
  | sliced _ hexpired =>
    rw [if_neg fun h : PastSlice env c => h.2 hexpired, preemptSelf_dsqHint]
  | spared hpast hover hspared hsame =>
    rw [if_pos hpast, if_pos hover, if_pos hspared, endTick, mailboxDvfs_dsqHint, hsame.dsqHint_eq]
  | starved hpast hover hspared hsame =>
    rw [if_pos hpast, if_pos hover, if_neg hspared, preemptSelf_dsqHint, hsame.dsqHint_eq]
  | quiet hpast hover hsame =>
    rw [if_pos hpast, if_neg hover, endTick, mailboxDvfs_dsqHint, hsame.dsqHint_eq]

/-! ### The machine -/

/-- The last target `scx_bpf_cpuperf_set` was called with, for each CPU it was called for. -/
abbrev Requested := Cpu → Option U32

/-- A call takes the place of the one before. -/
def requestedAfter (ro : Rodata) (s : System τ) (requested : Requested) : Entry τ → Requested
  | .callback (.tick p env) =>
    match (imperatorTick ro env (s.ctx p) s.bss).cpuperf with
    | some target => Function.update requested env.cpu (some target)
    | none => requested
  | _ => requested

/-- The target a tick would request is at most `SCX_CPUPERF_ONE`. -/
def TargetInRange (ro : Rodata) (s : System τ) : Entry τ → Prop
  | .callback (.tick p env) => ∀ c, s.ctx p = some c →
      ∀ target, dvfsTarget ro env c s.bss = some target → target.toNat ≤ 1024
  | _ => True

variable {s : System τ} {requested : Requested} {e : Entry τ}

/-- Every hint is the code of the last request, or zero where there was none. -/
structure HintFaithful (hint : Cpu → U8) (requested : Requested) : Prop where
  unset : ∀ i, requested i = none → hint i = 0
  encoded : ∀ i target, requested i = some target → hint i = dsqHintEncode target
  inRange : ∀ i target, requested i = some target → target.toNat ≤ 1024

/-- Nothing was requested, and nothing is stored. -/
theorem hintFaithful_init : HintFaithful (fun _ => 0) fun _ => none :=
  ⟨fun _ _ => rfl, nofun, nofun⟩

/-- A request is stored with its code. -/
theorem HintFaithful.update {hint : Cpu → U8} (h : HintFaithful hint requested) (cpu : Cpu)
    (hle : target.toNat ≤ 1024) :
    HintFaithful (Function.update hint cpu (dsqHintEncode target))
      (Function.update requested cpu (some target)) := by
  constructor
  · intro i hi
    rcases eq_or_ne i cpu with rfl | hne
    · rw [Function.update_self] at hi
      cases hi
    · rw [Function.update_of_ne hne] at hi ⊢
      exact h.unset i hi
  · intro i target' hi
    rcases eq_or_ne i cpu with rfl | hne
    · rw [Function.update_self] at hi ⊢
      rw [Option.some.inj hi]
    · rw [Function.update_of_ne hne] at hi ⊢
      exact h.encoded i target' hi
  · intro i target' hi
    rcases eq_or_ne i cpu with rfl | hne
    · rw [Function.update_self] at hi
      exact Option.some.inj hi ▸ hle
    · rw [Function.update_of_ne hne] at hi
      exact h.inRange i target' hi

theorem requestedAfter_of_ne (ro : Rodata) (s : System τ) (requested : Requested)
    (h : ∀ p env, e ≠ .callback (.tick p env)) : requestedAfter ro s requested e = requested := by
  cases e with
  | callback cb =>
    cases cb with
    | tick p env => exact absurd rfl (h p env)
    | enable | enqueue | running | stopping => rfl
  | selectCpu | dispatch | initTask | lockHolder => rfl

/-- A tick that ends in a block leaves a last request behind with the code of its target: its own,
or the one before. -/
theorem HintFaithful.requested_tick (h : HintFaithful s.bss.dsqHint requested) {p : τ}
    (hctx : s.ctx p = some c) (htarget : dvfsTarget ro env c s.bss = some target)
    (hle : target.toNat ≤ 1024) :
    ∃ last, requestedAfter ro s requested (.callback (.tick p env))
        = Function.update requested env.cpu (some last) ∧
      dsqHintEncode last = dsqHintEncode target ∧ last.toNat ≤ 1024 := by
  rw [requestedAfter, hctx, imperatorTick_cpuperf, htarget, Option.filter_some]
  by_cases hask : s.bss.dsqHint env.cpu = 0 ∨ s.bss.dsqHint env.cpu ≠ dsqHintEncode target
  · rw [if_pos (decide_eq_true hask)]
    exact ⟨target, rfl, rfl, hle⟩
  · rw [if_neg fun hdec => hask (of_decide_eq_true hdec)]
    rw [not_or, not_not] at hask
    cases hlast : requested env.cpu with
    | none => exact absurd (h.unset _ hlast) hask.1
    | some last =>
      refine ⟨last, ?_, (h.encoded _ _ hlast).symm.trans hask.2, h.inRange _ _ hlast⟩
      rw [← hlast, Function.update_eq_self]

/-- **A tick.** Where it ends in a block, the hint is the code of its target, and so is that of the
last request. -/
theorem HintFaithful.tick (h : HintFaithful s.bss.dsqHint requested) {p : τ}
    (hrange : TargetInRange ro s (.callback (.tick p env))) :
    HintFaithful (imperatorTick ro env (s.ctx p) s.bss).bss.dsqHint
      (requestedAfter ro s requested (.callback (.tick p env))) := by
  cases hctx : s.ctx p with
  | none =>
    rw [requestedAfter, hctx, imperatorTick]
    exact h
  | some c =>
    rw [imperatorTick_dsqHint]
    cases htarget : dvfsTarget ro env c s.bss with
    | none =>
      rw [requestedAfter, hctx, imperatorTick_cpuperf, htarget, Option.filter_none]
      exact h
    | some target =>
      obtain ⟨last, hafter, hcode, hle⟩ := h.requested_tick hctx htarget (hrange c hctx _ htarget)
      rw [hafter]
      dsimp only
      rw [← hcode]
      exact h.update env.cpu hle

/-- The kernel never reports a capability above `SCX_CPUPERF_ONE`, and then all targets are in
range. -/
theorem targetInRange_of_cap (h : ∀ p env, e = .callback (.tick p env) → env.cpuperfCap ≤ 1024) :
    TargetInRange ro s e := by
  cases e with
  | callback cb =>
    cases cb with
    | tick p env =>
      intro c _ target htarget
      rw [dvfsTarget] at htarget
      split at htarget
      · split at htarget
        · split at htarget
          · obtain rfl := Option.some.inj htarget
            exact scaledTarget_le c.tier (h p env rfl)
          · cases htarget
        · obtain rfl := Option.some.inj htarget
          exact le_rfl
      · cases htarget
    | enable | enqueue | running | stopping => exact trivial
  | selectCpu | dispatch | initTask | lockHolder => exact trivial

/-! ### Runs -/

variable [DecidableEq τ] {es : List (Entry τ)}

/-- The runs of the machine with targets in range, and the last requests beside it. -/
def RequestRun (ro : Rodata) (hy : HybridRodata) (es : List (Entry τ))
    (s : System τ × Requested) : Prop :=
  Run (Guarded (ofNext (recording (System.enter ro hy) (requestedAfter ro)))
    fun s => TargetInRange ro s.1) (System.init ro, fun _ => none) es s

/-- Starting to run replaces the flags. -/
theorem imperatorRunning_dsqHint (ro : Rodata) (cpu : Cpu) (now : U64) (ctx : Option TaskCtx)
    (bss : Bss) : (imperatorRunning ro cpu now ctx bss).2.dsqHint = bss.dsqHint := by
  funext i
  cases ctx with
  | none => rfl
  | some c =>
    rw [Bss.dsqHint, imperatorRunning_megaMailbox]
    rcases eq_or_ne i cpu with rfl | hne
    · rw [Function.update_self]
      rfl
    · rw [Function.update_of_ne hne]
      rfl

/-- Entries other than a tick leave the hints alone. -/
theorem enter_dsqHint (ro : Rodata) (hy : HybridRodata) (s : System τ)
    (h : ∀ p env, e ≠ .callback (.tick p env)) : (s.enter ro hy e).bss.dsqHint = s.bss.dsqHint := by
  have hmailbox : ∀ {bss bss' : Bss}, bss'.megaMailbox = bss.megaMailbox →
      bss'.dsqHint = bss.dsqHint := fun hsame => funext fun i => by rw [Bss.dsqHint, hsame]; rfl
  cases e with
  | callback cb =>
    cases cb with
    | enable => rfl
    | enqueue p env => exact hmailbox (imperatorEnqueue_megaMailbox)
    | running p cpu now => exact imperatorRunning_dsqHint ro cpu now _ s.bss
    | tick p env => exact absurd rfl (h p env)
    | stopping p cpu now runnable =>
      exact hmailbox (imperatorStopping_megaMailbox)
  | selectCpu p env => exact hmailbox (imperatorSelectCpu_megaMailbox)
  | dispatch | initTask | lockHolder => rfl

/-- **One entry.** -/
theorem HintFaithful.enter (h : HintFaithful s.bss.dsqHint requested)
    (hrange : TargetInRange ro s e) :
    HintFaithful (s.enter ro hy e).bss.dsqHint (requestedAfter ro s requested e) := by
  by_cases htick : ∃ p env, e = .callback (.tick p env)
  · obtain ⟨p, env, rfl⟩ := htick
    exact h.tick hrange
  · have hne : ∀ p env, e ≠ .callback (.tick p env) := fun p env heq => htick ⟨p, env, heq⟩
    rw [enter_dsqHint ro hy s hne, requestedAfter_of_ne ro s requested hne]
    exact h

theorem RequestRun.hintFaithful (h : RequestRun ro hy es (s, requested)) :
    HintFaithful s.bss.dsqHint requested := by
  refine Run.invariant (I := fun s => HintFaithful s.1.bss.dsqHint s.2) ?_ h hintFaithful_init
  rintro s e _ hs ⟨hrange, rfl⟩
  exact hs.enter hrange

/-- **The cache is faithful.** In every run with targets in range, the hint of a CPU is zero exactly
if `scx_bpf_cpuperf_set` was never called for it, and otherwise the code of the last target it was
called with. So the first tick that ends in a block makes the call, and after every such tick the
last target and the one it wanted are in the same bucket of eight. -/
theorem dvfs_cache_faithful (ro : Rodata) (hy : HybridRodata) (es : List (Entry τ)) (s : System τ)
    (requested : Requested) (h : RequestRun ro hy es (s, requested)) :
    (∀ i, ((s.bss.megaMailbox i).dsqHint = 0 ↔ requested i = none) ∧
      ∀ target, requested i = some target →
        (s.bss.megaMailbox i).dsqHint = dsqHintEncode target) ∧
    ∀ p env c target, s.ctx p = some c → dvfsTarget ro env c s.bss = some target →
      target.toNat ≤ 1024 →
      (requested env.cpu = none →
        (imperatorTick ro env (some c) s.bss).cpuperf = some target) ∧
      ∃ last, requestedAfter ro s requested (.callback (.tick p env)) env.cpu = some last ∧
        last.toNat / 8 = target.toNat / 8 := by
  have hfaithful := h.hintFaithful
  refine ⟨fun i => ⟨⟨fun hzero => ?_, hfaithful.unset i⟩, hfaithful.encoded i⟩, ?_⟩
  · cases hlast : requested i with
    | none => rfl
    | some last =>
      have hcode : dsqHintEncode last = 0 := (hfaithful.encoded i last hlast).symm.trans hzero
      exact absurd hcode (dsqHintEncode_ne_zero (hfaithful.inRange i last hlast))
  · intro p env c target hctx htarget hle
    constructor
    · intro hnone
      rw [imperatorTick_cpuperf, htarget, Option.filter_some,
        if_pos (decide_eq_true (Or.inl (hfaithful.unset _ hnone)))]
    · obtain ⟨last, hafter, hcode, hlast⟩ := hfaithful.requested_tick hctx htarget hle
      refine ⟨last, ?_, (dsqHintEncode_inj hle hlast).mp hcode⟩
      rw [hafter, Function.update_self]

/-- A task alone on its CPU, up to its first tick. -/
def quietEntries : List (Entry Unit) :=
  [.callback (.enable () 120 true), .callback (.running () 0 1000000),
    .callback (.tick () (quietTick 0).env)]

theorem quietEntries_run : ∃ s requested,
    RequestRun defaultRodata noHybrid quietEntries (s, requested) ∧
      requested 0 = some 1024 := by
  refine ⟨_, _, Run.foldl_of_admits ⟨trivial, trivial, ?_, trivial⟩, by decide⟩
  refine targetInRange_of_cap fun p env heq => ?_
  obtain rfl : (quietTick 0).env = env := by injection heq with heq; injection heq
  decide

theorem quietEntries_hint_faithful : ∃ (s : System Unit) (requested : Requested),
    requested 0 = some 1024 ∧ (s.bss.megaMailbox 0).dsqHint = dsqHintEncode 1024 := by
  obtain ⟨s, requested, hrun, hlast⟩ := quietEntries_run
  exact ⟨s, requested, hlast, ((dvfs_cache_faithful defaultRodata noHybrid quietEntries s
    requested hrun).1 0).2 1024 hlast⟩

end Imperator
