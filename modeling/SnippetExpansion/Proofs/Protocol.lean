import SnippetExpansion.Proofs.Dialogue

/-! # Dialogues that keep to a protocol
A protocol says what may be asked at each stage, and to which stage a question leads with its answer. A
dialogue keeps to it if it does so whatever it is answered. -/
namespace SnippetExpansion

structure Protocol (Q : Type) (A : Q → Type) (S : Type) where
  Allows : S → Q → Prop
  next : S → (q : Q) → A q → S

def Protocol.only {Q : Type} (A : Q → Type) (P : Q → Prop) : Protocol Q A Unit :=
  ⟨fun _ => P, fun _ _ _ => ()⟩

namespace Dialogue

variable {Q : Type} {A : Q → Type} {S α β : Type} {p : Protocol Q A S}

/-- From a stage on only what is allowed is asked, and the result is as `post` has it at the last stage. -/
def Keeps (p : Protocol Q A S) (post : S → α → Prop) : Dialogue Q A α → S → Prop
  | done a, stage => post stage a
  | ask q resume, stage =>
    p.Allows stage q ∧ ∀ answer, (resume answer).Keeps p post (p.next stage q answer)

def AsksOnly (P : Q → Prop) (post : α → Prop) (d : Dialogue Q A α) : Prop :=
  d.Keeps (.only A P) (fun _ => post) ()

theorem keeps_request_bind {post : S → β → Prop} {q : Q} {f : A q → Dialogue Q A β} {stage : S} :
    (request q >>= f).Keeps p post stage ↔
      p.Allows stage q ∧ ∀ answer, (f answer).Keeps p post (p.next stage q answer) := Iff.rfl

theorem Keeps.bind {d : Dialogue Q A α} {f : α → Dialogue Q A β} {between : S → α → Prop}
    {post : S → β → Prop} {stage : S} (h : d.Keeps p between stage)
    (hf : ∀ stage' a, between stage' a → (f a).Keeps p post stage') :
    (d >>= f).Keeps p post stage := by
  induction d generalizing stage with
  | done a => exact hf stage a h
  | ask q resume ih => exact ⟨h.1, fun answer => ih answer (h.2 answer)⟩

theorem asksOnly_pure {P : Q → Prop} {post : α → Prop} {a : α} (h : post a) :
    (pure a : Dialogue Q A α).AsksOnly P post := h

theorem asksOnly_request {P : Q → Prop} {q : Q} (h : P q) :
    (request q : Dialogue Q A (A q)).AsksOnly P fun _ => True :=
  ⟨h, fun _ => trivial⟩

theorem asksOnly_anything (d : Dialogue Q A α) : d.AsksOnly (fun _ => True) fun _ => True := by
  induction d with
  | done a => trivial
  | ask q resume ih => exact ⟨trivial, fun answer => ih answer⟩

theorem AsksOnly.bind {P : Q → Prop} {d : Dialogue Q A α} {f : α → Dialogue Q A β}
    {between : α → Prop} {post : β → Prop} (h : d.AsksOnly P between)
    (hf : ∀ a, between a → (f a).AsksOnly P post) : (d >>= f).AsksOnly P post :=
  Keeps.bind h fun _ => hf

theorem AsksOnly.mapM {P : Q → Prop} {f : α → Dialogue Q A β} {post : β → Prop} {l : List α}
    (h : ∀ a ∈ l, (f a).AsksOnly P post) : (l.mapM f).AsksOnly P fun bs => ∀ b ∈ bs, post b := by
  induction l with
  | nil => exact asksOnly_pure nofun
  | cons a l ih =>
    obtain ⟨ha, hl⟩ := List.forall_mem_cons.1 h
    rw [List.mapM_cons]
    exact ha.bind fun b hb => (ih hl).bind fun bs hbs => asksOnly_pure (List.forall_mem_cons.2 ⟨hb, hbs⟩)

theorem AsksOnly.imp {P P' : Q → Prop} {d : Dialogue Q A α} {post post' : α → Prop}
    (h : d.AsksOnly P post) (hquestion : ∀ q, P q → P' q) (hresult : ∀ a, post a → post' a) :
    d.AsksOnly P' post' := by
  induction d with
  | done a => exact hresult a h
  | ask q resume ih => exact ⟨hquestion q h.1, fun answer => ih answer (h.2 answer)⟩

/-- Only the answers to what may be asked go into the outcome. -/
theorem AsksOnly.outcome_congr {P : Q → Prop} {d : Dialogue Q A α} {post : α → Prop}
    (h : d.AsksOnly P post) {reply reply' : (q : Q) → A q} (hsame : ∀ q, P q → reply q = reply' q) :
    d.outcome reply = d.outcome reply' := by
  induction d with
  | done a => rfl
  | ask q resume ih =>
    rw [Dialogue.outcome, Dialogue.outcome, hsame q h.1]
    exact ih (reply' q) (h.2 (reply' q))

theorem AsksOnly.outcome {P : Q → Prop} {d : Dialogue Q A α} {post : α → Prop} (h : d.AsksOnly P post)
    (reply : (q : Q) → A q) : post (d.outcome reply) := by
  induction d with
  | done a => exact h
  | ask q resume ih => exact ih (reply q) (h.2 (reply q))

theorem AsksOnly.bind_congr {P : Q → Prop} {d : Dialogue Q A α} {post : α → Prop} (h : d.AsksOnly P post)
    {f g : α → Dialogue Q A β} (hsame : ∀ a, post a → f a = g a) : d >>= f = d >>= g := by
  induction d with
  | done a => exact hsame a h
  | ask q resume ih =>
    rw [ask_bind, ask_bind]
    exact congrArg (ask q) (funext fun answer => ih answer (h.2 answer))

/-- Questions that are allowed at a stage and do not lead away from it leave it at that stage. -/
theorem AsksOnly.keeps {P : Q → Prop} {d : Dialogue Q A α} {post : α → Prop} {stage : S}
    (h : d.AsksOnly P post)
    (hstay : ∀ q, P q → p.Allows stage q ∧ ∀ answer, p.next stage q answer = stage) :
    d.Keeps p (fun stage' a => stage' = stage ∧ post a) stage := by
  induction d with
  | done a => exact ⟨rfl, h⟩
  | ask q resume ih =>
    obtain ⟨hallowed, hsame⟩ := hstay q h.1
    refine ⟨hallowed, fun answer => ?_⟩
    rw [hsame]
    exact ih answer (h.2 answer)

end Dialogue
end SnippetExpansion
