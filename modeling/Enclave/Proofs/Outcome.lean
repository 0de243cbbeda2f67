import Enclave.Channel

/-!
# What an operation comes to

Over a world whose states can be written down, an operation of the library is
a function: from the world it starts in it gives an answer, and leaves a
world behind. `answerOf` and `worldAfter` are these two parts, and every
property of an operation is a statement about them. The world may hold
whatever decides how the surroundings behave, also a list of the misbehaviour
still to come, so that nothing is lost by asking for a function.

The equations here take an operation apart where it was put together. Those
for `Channel.bindAndRead` say what a session is: the answer of the read, if the
write took all of the report data, and in every case a session that is closed
again.

A channel often acts on a part of a larger world. `ActsOn` says what that means,
and then a session is the one over the part, and leaves the rest as it was.
-/

namespace Enclave

variable {σ α β : Type}

/-- **The answer of an operation** that starts in a world. -/
def answerOf (x : ExceptT Error (StateM σ) α) (w : σ) : Except Error α :=
  (StateT.run (ExceptT.run x) w).1

/-- **The world an operation leaves behind**, whatever its answer. -/
def worldAfter (x : ExceptT Error (StateM σ) α) (w : σ) : σ :=
  (StateT.run (ExceptT.run x) w).2

/-! ## Operations put together -/

@[simp] theorem answerOf_throw (e : Error) (w : σ) :
    answerOf (throw e : ExceptT Error (StateM σ) α) w = .error e := rfl

@[simp] theorem worldAfter_throw (e : Error) (w : σ) :
    worldAfter (throw e : ExceptT Error (StateM σ) α) w = w := rfl

/-- A decision that needs no world is its own answer. -/
@[simp] theorem answerOf_liftExcept (r : Except Error α) (w : σ) :
    answerOf (liftExcept r : ExceptT Error (StateM σ) α) w = r := by
  cases r <;> rfl

@[simp] theorem worldAfter_liftExcept (r : Except Error α) (w : σ) :
    worldAfter (liftExcept r : ExceptT Error (StateM σ) α) w = w := by
  cases r <;> rfl

/-- An action that cannot fail is a step from one world to the next. -/
@[simp] theorem answerOf_lift (x : StateM σ α) (w : σ) :
    answerOf (liftM x : ExceptT Error (StateM σ) α) w = .ok (x w).1 := rfl

@[simp] theorem worldAfter_lift (x : StateM σ α) (w : σ) :
    worldAfter (liftM x : ExceptT Error (StateM σ) α) w = (x w).2 := rfl

/-- **One operation after the other**: the second one starts where the first
one ended, unless the first one failed. -/
theorem answerOf_bind (x : ExceptT Error (StateM σ) α)
    (f : α → ExceptT Error (StateM σ) β) (w : σ) :
    answerOf (x >>= f) w
      = match answerOf x w with
        | .ok a => answerOf (f a) (worldAfter x w)
        | .error e => .error e := by
  unfold answerOf worldAfter
  rw [ExceptT.run_bind, StateT.run_bind]
  rcases StateT.run (ExceptT.run x) w with ⟨_ | _, _⟩ <;> rfl

theorem worldAfter_bind (x : ExceptT Error (StateM σ) α)
    (f : α → ExceptT Error (StateM σ) β) (w : σ) :
    worldAfter (x >>= f) w
      = match answerOf x w with
        | .ok a => worldAfter (f a) (worldAfter x w)
        | .error _ => worldAfter x w := by
  unfold answerOf worldAfter
  rw [ExceptT.run_bind, StateT.run_bind]
  rcases StateT.run (ExceptT.run x) w with ⟨_ | _, _⟩ <;> rfl

/-! ## Sessions -/

namespace Channel

/-- **What an exchange answers**: the error of the write, a short transfer if
it took another number of bytes than 64, and else the answer of the read. -/
theorem answerOf_exchange (ch : Channel (StateM σ)) (data : ReportData)
    (file : AttestationFile) (limit : Nat) (w : σ) :
    answerOf (ch.exchange data file limit) w
      = match answerOf (ch.write .userReportData data.toBytes) w with
        | .error e => .error e
        | .ok n =>
          if n = 64 then
            answerOf (ch.read file limit)
              (worldAfter (ch.write .userReportData data.toBytes) w)
          else .error (.shortTransfer .write AttestationFile.userReportData.name 64 n) := by
  unfold exchange
  rw [answerOf_bind]
  cases answerOf (ch.write .userReportData data.toBytes) w with
  | error e => rfl
  | ok n => by_cases h : n = 64 <;> simp [h]

/-- The world an exchange leaves behind: the one after the read, or the one
after a write that did not take everything. -/
theorem worldAfter_exchange (ch : Channel (StateM σ)) (data : ReportData)
    (file : AttestationFile) (limit : Nat) (w : σ) :
    worldAfter (ch.exchange data file limit) w
      = match answerOf (ch.write .userReportData data.toBytes) w with
        | .error _ => worldAfter (ch.write .userReportData data.toBytes) w
        | .ok n =>
          if n = 64 then
            worldAfter (ch.read file limit)
              (worldAfter (ch.write .userReportData data.toBytes) w)
          else worldAfter (ch.write .userReportData data.toBytes) w := by
  unfold exchange
  rw [worldAfter_bind]
  cases answerOf (ch.write .userReportData data.toBytes) w with
  | error e => rfl
  | ok n => by_cases h : n = 64 <;> simp [h]

/-- **A session answers what its exchange answers.** -/
theorem answerOf_bindAndRead (ch : Channel (StateM σ)) (data : ReportData)
    (file : AttestationFile) (limit : Nat) (w : σ) :
    answerOf (ch.bindAndRead data file limit) w
      = answerOf (ch.exchange data file limit) (ch.openSession w).2 := rfl

/-- **A session is closed again however its exchange ends.** -/
theorem worldAfter_bindAndRead (ch : Channel (StateM σ)) (data : ReportData)
    (file : AttestationFile) (limit : Nat) (w : σ) :
    worldAfter (ch.bindAndRead data file limit) w
      = (ch.closeSession (worldAfter (ch.exchange data file limit) (ch.openSession w).2)).2 :=
  rfl

end Channel

/-! ## Parts of a world -/

section Part

variable {τ : Type} {f : {γ : Type} → StateM σ γ → StateM τ γ} {place : σ → τ}

/-- **Acting on a part of a world.** Worlds that differ only in that part are
those that `place` yields. -/
def ActsOn (f : {γ : Type} → StateM σ γ → StateM τ γ) (place : σ → τ) : Prop :=
  ∀ {γ : Type} (x : StateM σ γ) (s : σ), f x (place s) = ((x s).1, place (x s).2)

theorem ActsOn.answerOf_mk (h : ActsOn f place) (x : ExceptT Error (StateM σ) α) (s : σ) :
    answerOf (ExceptT.mk (f x.run)) (place s) = answerOf x s :=
  congrArg Prod.fst (h x.run s)

theorem ActsOn.worldAfter_mk (h : ActsOn f place) (x : ExceptT Error (StateM σ) α) (s : σ) :
    worldAfter (ExceptT.mk (f x.run)) (place s) = place (worldAfter x s) :=
  congrArg Prod.snd (h x.run s)

namespace Channel

variable (ch : Channel (StateM σ)) (data : ReportData) (file : AttestationFile) (limit : Nat)
  (s : σ)

/-- A channel in a part of a world answers as it does there. -/
theorem answerOf_exchange_lift (h : ActsOn f place) :
    answerOf ((ch.lift f).exchange data file limit) (place s)
      = answerOf (ch.exchange data file limit) s := by
  have hwrite := h.answerOf_mk (ch.write .userReportData data.toBytes) s
  have hwrote := h.worldAfter_mk (ch.write .userReportData data.toBytes) s
  rw [answerOf_exchange, answerOf_exchange, lift, hwrite, hwrote, h.answerOf_mk]

/-- It changes nothing but that part. -/
theorem worldAfter_exchange_lift (h : ActsOn f place) :
    worldAfter ((ch.lift f).exchange data file limit) (place s)
      = place (worldAfter (ch.exchange data file limit) s) := by
  have hwrite := h.answerOf_mk (ch.write .userReportData data.toBytes) s
  have hwrote := h.worldAfter_mk (ch.write .userReportData data.toBytes) s
  rw [worldAfter_exchange, worldAfter_exchange, lift, hwrite, hwrote, h.worldAfter_mk]
  cases answerOf (ch.write .userReportData data.toBytes) s with
  | error e => rfl
  | ok n => by_cases hn : n = 64 <;> simp [hn]

/-- **A session in a part of a world** is the session there. -/
theorem answerOf_bindAndRead_lift (h : ActsOn f place) :
    answerOf ((ch.lift f).bindAndRead data file limit) (place s)
      = answerOf (ch.bindAndRead data file limit) s := by
  have hopened : ((ch.lift f).openSession (place s)).2 = place (ch.openSession s).2 :=
    congrArg Prod.snd (h ch.openSession s)
  rw [answerOf_bindAndRead, hopened, answerOf_exchange_lift ch data file limit _ h,
    answerOf_bindAndRead]

theorem worldAfter_bindAndRead_lift (h : ActsOn f place) :
    worldAfter ((ch.lift f).bindAndRead data file limit) (place s)
      = place (worldAfter (ch.bindAndRead data file limit) s) := by
  have hopened : ((ch.lift f).openSession (place s)).2 = place (ch.openSession s).2 :=
    congrArg Prod.snd (h ch.openSession s)
  have hclosed (s' : σ) : ((ch.lift f).closeSession (place s')).2 = place (ch.closeSession s').2 :=
    congrArg Prod.snd (h ch.closeSession s')
  rw [worldAfter_bindAndRead, hopened, worldAfter_exchange_lift ch data file limit _ h, hclosed,
    worldAfter_bindAndRead]

end Channel

end Part

end Enclave
