import ScriptWarden.Proofs.Sessions.Hubs

/-!
# What viewers that come late are shown

A hub keeps the end of what was published, as pieces and with a running count of their bytes. Each
time a piece is published, a loop takes pieces from the front until the count is within the limit;
the last piece it takes is put back without its first bytes when only a part of it has to go. The
loop is written out here pass by pass, with differences that may fail, and `Hub.trim` is shown to be
what it comes to: it ends after at most one pass for each piece, and no difference fails, because
the count is that of the pieces in every pass.

## Results

* `trims_trim` — the loop ends, without an underflow, in what `Hub.trim` says.
* `trim_cut_iff`, `trim_whole` — when anything is let go, and that no piece kept is empty.
* `Replays.run` — what holds of a hub after any actions.
* `replay_is_tail` — what is kept are the last bytes of the output, for every limit and run.
-/

namespace ScriptWarden

namespace Hub

-- ---------------------------------------------------------------------------
-- The loop
-- ---------------------------------------------------------------------------

/-- What the loop works on: the count of bytes, the pieces, and whether any were let go. -/
structure Trimming where
  bytes : Nat
  pieces : List (List UInt8)
  truncated : Bool
deriving DecidableEq, Repr

/-- A difference of two counts, if it is not below zero. -/
def difference? (a b : Nat) : Option Nat := if b ≤ a then some (a - b) else none

/-- What a pass of the loop comes to. -/
inductive Pass where
  | over
  | again (next : Trimming)
  /-- A count would have fallen below zero. -/
  | underflow
deriving DecidableEq, Repr

/-- One pass: take the first piece, and put back what of it is within the limit. -/
def Trimming.pass (limit : Nat) (t : Trimming) : Pass :=
  if t.bytes ≤ limit then .over
  else
    match t.pieces with
    | [] => .over
    | front :: rest =>
      match difference? t.bytes limit with
      | none => .underflow
      | some excess =>
        if excess < front.length then
          match difference? t.bytes excess with
          | none => .underflow
          | some bytes => .again ⟨bytes, front.drop excess :: rest, true⟩
        else
          match difference? t.bytes front.length with
          | none => .underflow
          | some bytes => .again ⟨bytes, rest, true⟩

/-- The loop ends after so many passes, none of which underflows. -/
inductive Trims (limit : Nat) : Nat → Trimming → Trimming → Prop where
  | over {t : Trimming} : t.pass limit = .over → Trims limit 0 t t
  | again {t next result : Trimming} {n : Nat} : t.pass limit = .again next →
      Trims limit n next result → Trims limit (n + 1) t result

theorem difference?_of_le {a b : Nat} (h : b ≤ a) : difference? a b = some (a - b) := if_pos h

theorem Trimming.pass_of_le {limit : Nat} {t : Trimming} (h : t.bytes ≤ limit) :
    t.pass limit = .over := if_pos h

/-- A pass over pieces that are counted right. -/
theorem Trimming.pass_cons {limit bytes : Nat} {front : List UInt8} {rest : List (List UInt8)}
    {truncated : Bool} (hOver : limit < bytes) (hCount : front.length ≤ bytes) :
    (Trimming.mk bytes (front :: rest) truncated).pass limit =
      .again (if bytes - limit < front.length then
          ⟨limit, front.drop (bytes - limit) :: rest, true⟩
        else ⟨bytes - front.length, rest, true⟩) := by
  simp only [pass, if_neg (Nat.not_le_of_lt hOver), difference?_of_le (Nat.le_of_lt hOver),
    difference?_of_le hCount, difference?_of_le (Nat.sub_le bytes limit)]
  split
  · rw [Nat.sub_sub_self (Nat.le_of_lt hOver)]
  · rfl

/-- The loop ends, without an underflow and after at most one pass for each piece, in what `trim`
says. -/
theorem trims_trim (limit : Nat) (pieces : List (List UInt8)) (truncated : Bool) :
    ∃ n ≤ pieces.length, Trims limit n ⟨pieces.flatten.length, pieces, truncated⟩
      ⟨(trim limit pieces.flatten.length pieces).1, (trim limit pieces.flatten.length pieces).2.1,
        truncated || (trim limit pieces.flatten.length pieces).2.2⟩ := by
  induction pieces generalizing truncated with
  | nil =>
    refine ⟨0, Nat.le_refl 0, ?_⟩
    rw [trim, Bool.or_false]
    exact .over (Trimming.pass_of_le (Nat.zero_le limit))
  | cons front rest ih =>
    have hCount : (front :: rest).flatten.length = front.length + rest.flatten.length := by simp
    by_cases hFits : (front :: rest).flatten.length ≤ limit
    · refine ⟨0, Nat.zero_le _, ?_⟩
      rw [trim_of_le hFits, Bool.or_false]
      exact .over (Trimming.pass_of_le hFits)
    have hPass := @Trimming.pass_cons limit _ front rest truncated (Nat.lt_of_not_le hFits)
      (hCount ▸ Nat.le_add_right _ _)
    by_cases hPart : (front :: rest).flatten.length - limit < front.length
    · -- the piece is put back without its first bytes, and the next pass finds nothing to do
      rw [if_pos hPart] at hPass
      refine ⟨1, by simp, .again hPass ?_⟩
      rw [trim, if_neg hFits]
      simp only [if_pos hPart, Bool.or_true, Nat.sub_sub_self (Nat.le_of_not_le hFits)]
      exact .over (Trimming.pass_of_le (Nat.le_refl limit))
    · obtain ⟨n, hPasses, hRest⟩ := ih true
      have hLeft : (front :: rest).flatten.length - front.length = rest.flatten.length := by omega
      rw [if_neg hPart, hLeft] at hPass
      refine ⟨n + 1, Nat.succ_le_succ hPasses, .again hPass ?_⟩
      rw [trim, if_neg hFits]
      simp only [if_neg hPart, hLeft, Bool.or_true]
      rwa [Bool.true_or] at hRest

-- ---------------------------------------------------------------------------
-- What trimming lets go
-- ---------------------------------------------------------------------------

/-- Bytes are let go exactly when there are more than the limit. -/
theorem trim_cut_iff (limit : Nat) (pieces : List (List UInt8)) :
    (trim limit pieces.flatten.length pieces).2.2 = true ↔ limit < pieces.flatten.length := by
  cases pieces with
  | nil => simp [trim]
  | cons front rest =>
    by_cases hFits : (front :: rest).flatten.length ≤ limit
    · rw [trim_of_le hFits]
      exact iff_of_false Bool.false_ne_true (Nat.not_lt_of_le hFits)
    · rw [trim, if_neg hFits]
      simp only [Nat.lt_of_not_le hFits, iff_true]
      split <;> rfl

/-- A piece that is kept has bytes: one that is cut keeps the last of them. -/
theorem trim_whole (limit bytes : Nat) {pieces : List (List UInt8)}
    (h : ∀ piece ∈ pieces, piece ≠ []) : ∀ piece ∈ (trim limit bytes pieces).2.1, piece ≠ [] := by
  induction pieces generalizing bytes with
  | nil => exact h
  | cons front rest ih =>
    obtain ⟨-, hRest⟩ := List.forall_mem_cons.mp h
    rw [trim]
    split
    · exact h
    by_cases hPart : bytes - limit < front.length
    · simp only [if_pos hPart]
      refine List.forall_mem_cons.mpr ⟨?_, hRest⟩
      rw [Ne, List.drop_eq_nil_iff]
      exact Nat.not_le_of_lt hPart
    · simp only [if_neg hPart]
      exact ih _ hRest

-- ---------------------------------------------------------------------------
-- Runs
-- ---------------------------------------------------------------------------

/-- A hub of so many pieces and an end, which keeps whole pieces and knows whether it let any go. -/
structure Replays (h : Hub) (pieces : List (List UInt8)) (ending : Option Exit) : Prop extends
    Consistent h pieces ending where
  whole : ∀ piece ∈ h.history, piece ≠ []
  truncated : h.truncated = true ↔ h.limit < pieces.flatten.length

namespace Replays

variable {hub : Hub} {pieces : List (List UInt8)} {ending : Option Exit} {chunk : List UInt8}

theorem initial (limit : Nat) {capacity : Nat} (hCapacity : 0 < capacity) :
    Replays { limit, channel := { capacity } } [] none :=
  ⟨.initial limit hCapacity, List.forall_mem_nil _, by simp⟩

/-- The count and the pieces that the loop begins with when a piece is published. -/
theorem bytes_publish (h : Replays hub pieces ending) (chunk : List UInt8) :
    hub.historyBytes + chunk.length = (hub.history ++ [chunk]).flatten.length := by
  simp [h.bytes]

theorem length_history (h : Replays hub pieces ending) :
    hub.history.flatten.length = min hub.limit pieces.flatten.length := by
  rw [h.kept, List.rtake, List.length_drop]
  omega

theorem publish (h : Replays hub pieces none) (hChunk : chunk.isEmpty = false) :
    Replays (hub.publish chunk) (pieces ++ [chunk]) none := by
  refine ⟨h.toConsistent.publish hChunk, ?_, ?_⟩
  · rw [publish_of_open hChunk h.ended]
    refine trim_whole _ _ (List.forall_mem_append.mpr ⟨h.whole, ?_⟩)
    exact List.forall_mem_singleton.mpr (by simpa using hChunk)
  · have hCut : (hub.publish chunk).truncated = true ↔
        hub.truncated = true ∨ hub.limit < (hub.history ++ [chunk]).flatten.length := by
      rw [publish_of_open hChunk h.ended, h.bytes_publish, Bool.or_eq_true, trim_cut_iff]
    have hLimit : (hub.publish chunk).limit = hub.limit := limit_act hub (.publish chunk)
    rw [hCut, h.truncated, hLimit, List.flatten_append, List.length_append, h.length_history,
      List.flatten_append, List.length_append]
    -- what was kept is all there was, unless something was let go before
    omega

/-- Who asks, comes or goes changes nothing of what is kept. -/
theorem of_same {hub' : Hub} (h : Replays hub pieces ending) {pieces' : List (List UInt8)}
    {ending' : Option Exit} (hConsistent : Consistent hub' pieces' ending')
    (hPieces : pieces' = pieces) (hHistory : hub'.history = hub.history)
    (hTruncated : hub'.truncated = hub.truncated) (hLimit : hub'.limit = hub.limit) :
    Replays hub' pieces' ending' := by
  refine ⟨hConsistent, ?_, ?_⟩
  · rw [hHistory]
    exact h.whole
  · rw [hTruncated, hLimit, hPieces]
    exact h.truncated

theorem history_act_of_not_publish {action : Action} (h : ∀ chunk, action ≠ .publish chunk)
    (hub : Hub) : (hub.act action).history = hub.history ∧
      (hub.act action).truncated = hub.truncated := by
  cases action with
  | publish chunk => exact absurd rfl (h chunk)
  | finish exit =>
    rw [Hub.act, Hub.finish]
    split <;> exact ⟨rfl, rfl⟩
  | _ => exact ⟨rfl, rfl⟩

/-- One action, which counts only before an end. -/
theorem act (h : Replays hub pieces ending) (action : Action) :
    Replays (hub.act action) (pieces ++ if ending.isSome then [] else published [action])
      (ending.or (announced [action])) := by
  have hConsistent := h.toConsistent.act action
  by_cases hPublish : ∃ chunk, action = .publish chunk
  · obtain ⟨chunk, rfl⟩ := hPublish
    cases ending with
    | some exit =>
      have hSame : hub.act (.publish chunk) = hub :=
        publish_of_ended (by rw [h.ended, Option.isSome_some])
      exact h.of_same hConsistent (by simp) (by rw [hSame]) (by rw [hSame]) (by rw [hSame])
    | none =>
      cases hChunk : chunk.isEmpty with
      | true =>
        have hSame : hub.act (.publish chunk) = hub := publish_of_isEmpty hChunk
        exact h.of_same hConsistent (by simp [published, hChunk]) (by rw [hSame]) (by rw [hSame])
          (by rw [hSame])
      | false =>
        have hPublished : published [Action.publish chunk] = [chunk] := by simp [published, hChunk]
        rw [hPublished]
        exact h.publish hChunk
  · have hOther : ∀ chunk, action ≠ .publish chunk := fun chunk hSame => hPublish ⟨chunk, hSame⟩
    obtain ⟨hHistory, hTruncated⟩ := history_act_of_not_publish hOther hub
    have hNothing : published [action] = [] := by
      cases action with
      | publish chunk => exact absurd rfl (hOther chunk)
      | _ => rfl
    exact h.of_same hConsistent (by simp [hNothing]) hHistory hTruncated (limit_act hub action)

/-- The hub after actions, of which only those before an end count. -/
theorem run (h : Replays hub pieces ending) (actions : List Action) :
    Replays (hub.run actions) (pieces ++ if ending.isSome then [] else published actions)
      (ending.or (announced actions)) := by
  induction actions generalizing hub pieces ending with
  | nil => simpa [Hub.run, published, announced] using h
  | cons action rest ih =>
    have hRest := ih (h.act action)
    rw [run_cons, ← List.singleton_append, published_append, announced_append]
    cases ending with
    | some exit => simpa using hRest
    | none =>
      rw [List.append_assoc] at hRest
      exact hRest

end Replays

/-- **What is kept is exactly the end of the output.** For every limit and every run of publishers
and viewers: the bytes kept are the last of those published, as many as the limit lets stay; the hub
knows whether it let any go; its count is that of the pieces, none of which is empty; after the end
publishing changes nothing, and before it the loop that makes room ends without an underflow. -/
theorem replay_is_tail (limit capacity : Nat) (hCapacity : 0 < capacity) :
    ∃ hub, Hub.ofCapacity? limit capacity = some hub ∧ ∀ actions : List Action,
      let h := hub.run actions
      let output := (published actions).flatten
      (h.contents <:+ output ∧ h.contents.length = min limit output.length) ∧
      (h.truncated = true ↔ limit < output.length) ∧
      h.historyBytes = (h.history.map List.length).sum ∧
      (∀ piece ∈ h.history, piece ≠ []) ∧
      (announced actions ≠ none → ∀ chunk, h.publish chunk = h) ∧
      (announced actions = none → ∀ chunk, chunk ≠ [] → ∃ passes ≤ h.history.length + 1,
        Trims limit passes ⟨h.historyBytes + chunk.length, h.history ++ [chunk], h.truncated⟩
          ⟨(h.publish chunk).historyBytes, (h.publish chunk).history,
            (h.publish chunk).truncated⟩) := by
  have hPower : 0 < capacity.nextPowerOfTwo :=
    Nat.pos_of_isPowerOfTwo (Nat.isPowerOfTwo_nextPowerOfTwo capacity)
  refine ⟨{ limit, channel := { capacity := capacity.nextPowerOfTwo } }, ?_, fun actions => ?_⟩
  · rw [ofCapacity?, Channel.ofCapacity?, if_neg (by simpa using Nat.ne_of_gt hCapacity)]
    rfl
  intro h output
  have hLimit : h.limit = limit := limit_run _ actions
  have hReplays : Replays h (published actions) (announced actions) := by
    simpa using (Replays.initial limit hPower).run actions
  refine ⟨⟨?_, ?_⟩, ?_, ?_, hReplays.whole, fun hEnd chunk => ?_, fun hOpen chunk hChunk => ?_⟩
  · rw [contents, hReplays.kept]
    exact List.drop_suffix _ _
  · rw [contents, hReplays.length_history, hLimit]
  · rw [hReplays.truncated, hLimit]
  · rw [hReplays.bytes, List.length_flatten]
  · refine publish_of_ended ?_
    rw [hReplays.ended]
    exact Option.isSome_iff_ne_none.mpr hEnd
  · obtain ⟨passes, hPasses, hTrims⟩ := trims_trim limit (h.history ++ [chunk]) h.truncated
    refine ⟨passes, by simpa using hPasses, ?_⟩
    rw [publish_of_open (by simpa using hChunk) (hReplays.ended.trans hOpen), hLimit,
      hReplays.bytes_publish]
    exact hTrims

/-- With room for three bytes, the second piece takes the first one with it, and its own first byte;
what is published after the end is not kept. -/
theorem last_three_bytes_kept :
    let hub : Hub := { limit := 3, channel := { capacity := 1 } }
    let h := hub.run [.publish [1, 2], .subscribe, .publish [3, 4, 5, 6], .finish {}, .publish [7]]
    (h.contents <:+ [1, 2, 3, 4, 5, 6] ∧ h.contents.length = 3) ∧ h.truncated = true := by
  intro hub h
  have hOne : Nat.nextPowerOfTwo 1 = 1 := by decide +kernel
  obtain ⟨hub', hHub, hKeeps⟩ := replay_is_tail 3 1 (by decide)
  rw [ofCapacity?, Channel.ofCapacity?, hOne] at hHub
  obtain rfl : hub = hub' := Option.some.inj hHub
  obtain ⟨hTail, hTruncated, -⟩ := hKeeps
    [.publish [1, 2], .subscribe, .publish [3, 4, 5, 6], .finish {}, .publish [7]]
  exact ⟨hTail, hTruncated.mpr (by decide)⟩

end Hub

end ScriptWarden
