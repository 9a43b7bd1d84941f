import Mathlib.Data.List.Basic
import ScriptDebugger.Report

/-! Iterators met while a stack is shown. The walk goes over the items from left to right and outside
in, into what each iterator yields up to the limit. The first iterator in it that fails decides the
whole; if none does, the iterators shown are those of the walk in its order, each cut at the limit. -/
namespace ScriptDebugger

/-- An iterator by what draining it comes to: it has so many items, or fails. -/
inductive Meeting where
  | yields (length : Nat)
  | fails (message : String)
  deriving DecidableEq, Repr

namespace Meeting

def failure? : Meeting → Option String
  | yields _ => none
  | fails message => some message

/-- The number of entries shown, and whether there are more items. -/
def shown? (max : Nat) : Meeting → Option (Nat × Bool)
  | yields length => some (min max length,max < length)
  | fails _ => none

end Meeting

namespace StackItem

mutual
def walk (max : Nat) : StackItem → List Meeting
  | .array items | .struct items => walkItems max items
  | .map entries => walkEntries max entries
  | .iterator _ _ (some message) => [.fails message]
  | .iterator _ items none => .yields items.length :: walkFirst max max items
  | _ => []
def walkItems (max : Nat) : List StackItem → List Meeting
  | [] => []
  | item :: rest => walk max item ++ walkItems max rest
def walkEntries (max : Nat) : List (StackItem × StackItem) → List Meeting
  | [] => []
  | (k, v) :: rest => walk max k ++ (walk max v ++ walkEntries max rest)
def walkFirst (max : Nat) : Nat → List StackItem → List Meeting
  | 0, _ => []
  | _, [] => []
  | count + 1, item :: rest => walk max item ++ walkFirst max count rest
end

end StackItem

namespace Json

mutual
/-- The iterators that a value shows, in its order. -/
def iterators : Json → List (Nat × Bool)
  | .list items => listIterators items
  | .object fields =>
    match fields.lookup "iterator", fields.lookup "truncated" with
    | some (.list entries), some (.bool truncated) =>
      (entries.length,truncated) :: fieldIterators fields
    | _, _ => fieldIterators fields
  | _ => []
def listIterators : List Json → List (Nat × Bool)
  | [] => []
  | item :: rest => iterators item ++ listIterators rest
def fieldIterators : List (String × Json) → List (Nat × Bool)
  | [] => []
  | (_, v) :: rest => iterators v ++ fieldIterators rest
end

end Json

namespace StackItem

variable {α β γ : Type} {max : Nat} {met later : List Meeting}

/-- What comes of a conversion that meets these iterators: what it gives shows them all, or the first
that fails is its failure. -/
inductive Accounts (max : Nat) (view : α → List (Nat × Bool)) (met : List Meeting)
    (result : Except String α) : Prop where
  | shown (x : α) (done : result = .ok x) (none : met.findSome? Meeting.failure? = none)
      (lists : view x = met.filterMap (Meeting.shown? max))
  | failed (message : String) (done : result = .error message)
      (first : met.findSome? Meeting.failure? = some message)

theorem accountsScalar {view : α → List (Nat × Bool)} {x : α} (none : view x = []) :
    Accounts max view [] (.ok x) :=
  .shown x rfl rfl none

theorem accountsAs {view : α → List (Nat × Bool)} {wider : β → List (Nat × Bool)} {f : α → β}
    {result : Except String α} (same : ∀ x, wider (f x) = view x)
    (accounts : Accounts max view met result) :
    Accounts max wider met (do return f (← result)) := by
  cases accounts with
  | shown x done none lists =>
    subst done
    exact .shown (f x) rfl none ((same x).trans lists)
  | failed message done first =>
    subst done
    exact .failed message rfl first

theorem accountsThen {one : α → List (Nat × Bool)} {two : β → List (Nat × Bool)}
    {both : γ → List (Nat × Bool)} {f : α → β → γ} {first : Except String α}
    {second : Except String β} (joined : ∀ x y, both (f x y) = one x ++ two y)
    (accounts : Accounts max one met first) (onward : Accounts max two later second) :
    Accounts max both (met ++ later) (do return f (← first) (← second)) := by
  cases accounts with
  | failed message done first =>
    subst done
    exact .failed message rfl (by rw [List.findSome?_append, first]; rfl)
  | shown x done none lists =>
    subst done
    cases onward with
    | failed message done first =>
      subst done
      exact .failed message rfl (by rw [List.findSome?_append, none, first]; rfl)
    | shown y done noneLater listsLater =>
      subst done
      refine .shown (f x y) rfl ?_ ?_
      · rw [List.findSome?_append, none, noneLater]
        rfl
      · rw [joined, lists, listsLater, List.filterMap_append]

theorem iteratorsTyped (type : String) (v : Json) :
    Json.iterators (typedValue type v) = Json.iterators v := by
  simp [typedValue, Json.iterators, Json.fieldIterators, List.lookup_cons]

theorem iteratorsEntry (k v : Json) :
    Json.iterators (.object [("key", k), ("value", v)]) = Json.iterators k ++ Json.iterators v := by
  simp [Json.iterators, Json.fieldIterators, List.lookup_cons]

def entryAbove (key : Json) (others : Json × List Json) : List Json :=
  .object [("key", key), ("value", others.1)] :: others.2

def pairIterators (others : Json × List Json) : List (Nat × Bool) :=
  Json.iterators others.1 ++ Json.listIterators others.2

theorem entriesOneByOne (max : Nat) (k v : StackItem) (rest : List (StackItem × StackItem)) :
    entriesToJson max ((k,v) :: rest) =
      (do
        return entryAbove (← toJson max k)
          (← (do return Prod.mk (← toJson max v) (← entriesToJson max rest)))) := by
  rw [entriesToJson]
  cases toJson max k with
  | error message => rfl
  | ok key =>
    cases toJson max v with
    | error message => rfl
    | ok value =>
      cases entriesToJson max rest with
      | error message => rfl
      | ok others => rfl

theorem bothDone {f : α → β → γ} {first : Except String α} {second : Except String β} {z : γ}
    (done : (do return f (← first) (← second)) = Except.ok z) :
    ∃ x y, first = .ok x ∧ second = .ok y ∧ f x y = z := by
  cases first with
  | error message => cases done
  | ok x =>
    cases second with
    | error message => cases done
    | ok y =>
      cases done
      exact ⟨x,y,rfl,rfl,rfl⟩

theorem drainedLength {count : Nat} {items : List StackItem} {js : List Json}
    (drained : drainToJson max count items = .ok js) : js.length = min count items.length := by
  induction items generalizing count js with
  | nil =>
    cases count <;> cases drained <;> simp
  | cons item rest ih =>
    cases count with
    | zero =>
      cases drained
      simp
    | succ count =>
      rw [drainToJson] at drained
      obtain ⟨j,others,_,onward,rfl⟩ := bothDone drained
      simp [ih onward]

theorem accountsIterator {handle : Nat} {items : List StackItem}
    (accounts : Accounts max Json.listIterators (walkFirst max max items)
      (drainToJson max max items)) :
    Accounts max Json.iterators (walk max (.iterator handle items none))
      (toJson max (.iterator handle items none)) := by
  cases accounts with
  | shown js done none lists =>
    refine .shown _ (by rw [toJson, done]; rfl) none ?_
    simp [Json.iterators, Json.fieldIterators, List.lookup_cons, lists, drainedLength done, walk,
      Meeting.shown?]
  | failed message done first => exact .failed message (by rw [toJson, done]; rfl) first

mutual
theorem accountsItem (max : Nat) :
    ∀ item : StackItem, Accounts max Json.iterators (walk max item) (toJson max item)
  | .any | .boolean _ | .integer _ | .byteString _ | .buffer _ | .pointer _ | .interop _ =>
    accountsScalar rfl
  | .array items | .struct items =>
    accountsAs (fun _ => iteratorsTyped _ _) (accountsItems max items)
  | .map entries => accountsAs (fun _ => iteratorsTyped _ _) (accountsEntries max entries)
  | .iterator _ _ (some message) => .failed message rfl rfl
  | .iterator _ items none => accountsIterator (accountsFirst max max items)
theorem accountsItems (max : Nat) :
    ∀ items : List StackItem,
      Accounts max Json.listIterators (walkItems max items) (itemsToJson max items)
  | [] => accountsScalar rfl
  | item :: rest => accountsThen (fun _ _ => rfl) (accountsItem max item) (accountsItems max rest)
theorem accountsEntries (max : Nat) :
    ∀ entries : List (StackItem × StackItem),
      Accounts max Json.listIterators (walkEntries max entries) (entriesToJson max entries)
  | [] => accountsScalar rfl
  | (k, v) :: rest => by
    rw [entriesOneByOne]
    have onward : Accounts max pairIterators (walk max v ++ walkEntries max rest)
        (do return Prod.mk (← toJson max v) (← entriesToJson max rest)) :=
      accountsThen (fun _ _ => rfl) (accountsItem max v) (accountsEntries max rest)
    refine accountsThen (fun key others => ?_) (accountsItem max k) onward
    rw [entryAbove, Json.listIterators, iteratorsEntry, List.append_assoc]
    rfl
theorem accountsFirst (max : Nat) :
    ∀ (count : Nat) (items : List StackItem),
      Accounts max Json.listIterators (walkFirst max count items) (drainToJson max count items)
  | 0, items => by
    cases items <;> exact accountsScalar rfl
  | _ + 1, [] => accountsScalar rfl
  | count + 1, item :: rest =>
    accountsThen (fun _ _ => rfl) (accountsItem max item) (accountsFirst max count rest)
end

theorem itemsOneByOne {items : List StackItem} {js : List Json}
    (done : itemsToJson max items = .ok js) :
    List.Forall₂ (fun item j => item.toJson max = .ok j) items js := by
  induction items generalizing js with
  | nil =>
    cases done
    exact .nil
  | cons item rest ih =>
    rw [itemsToJson] at done
    obtain ⟨j,others,first,onward,rfl⟩ := bothDone done
    exact .cons first (ih onward)

end StackItem

open StackItem (walkItems)

theorem dumpFailsFirst (items : List StackItem) (max : Nat) :
    let met := walkItems max items
    ((∃ js, dumpStack items max = .ok js) ↔ ∀ m ∈ met, m.failure? = none) ∧
    (∀ message, dumpStack items max = .error message ↔
      met.findSome? Meeting.failure? = some message) ∧
    ∀ js, dumpStack items max = .ok js →
      List.Forall₂ (fun item j => item.toJson max = .ok j) items js ∧
        Json.listIterators js = met.filterMap (Meeting.shown? max) := by
  intro met
  have accounts : StackItem.Accounts max Json.listIterators met (dumpStack items max) :=
    StackItem.accountsItems max items
  rw [← List.findSome?_eq_none_iff]
  cases accounts with
  | shown js done none lists =>
    rw [done, none]
    refine ⟨⟨fun _ => rfl,fun _ => ⟨js,rfl⟩⟩,fun message => ⟨nofun,nofun⟩,fun other same => ?_⟩
    cases same
    exact ⟨StackItem.itemsOneByOne done,lists⟩
  | failed message done first =>
    rw [done, first]
    refine ⟨⟨nofun,nofun⟩,fun other => ⟨fun same => ?_,fun same => ?_⟩,nofun⟩
    · cases same
      rfl
    · cases same
      rfl

end ScriptDebugger
