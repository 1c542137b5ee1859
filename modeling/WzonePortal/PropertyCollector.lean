import WzonePortal.CollectService
import WzonePortal.Generator

/-! Reading a vCenter inventory page by page. Each page brings the token of the next one; the view
that the pages are read from is an object of the server, which has to be told to drop it. -/
namespace WzonePortal
namespace PropertyCollector

/-- One object of an answer; the lists may be absent. -/
structure ObjectContent (V : Type) where
  moId : String
  propSet : Option (List (String × V)) := none
  missingSet : Option (List String) := none

/-- A dict from paths to values, which may be `None`. -/
abbrev Props (V : Type) : Type := String → Option (Option V)

/-- A property that could not be read is there without a value. -/
def propsToDict {V : Type} (content : ObjectContent V) : Props V :=
  (content.missingSet.getD []).foldl (fun props path => Function.update props path (some none))
    ((content.propSet.getD []).foldl
      (fun props p => Function.update props p.1 (some (some p.2))) fun _ => none)

abbrev Item (V : Type) : Type := String × Props V

def item {V : Type} (content : ObjectContent V) : Item V := (content.moId,propsToDict content)

structure RetrieveResult (V : Type) where
  objects : List (ObjectContent V)
  token : Option String := none

/-- `if not token`. -/
def RetrieveResult.continues {V : Type} (result : RetrieveResult V) : Bool :=
  match result.token with
  | none => false
  | some token => token ≠ ""

section
variable {View V : Type}

inductive CollectorOp (View : Type)
  | createContainerView
  | retrievePropertiesEx (view : View)
  | continueRetrievePropertiesEx (token : String)
  | destroyView (view : View)

@[reducible] def CollectorOp.Ans (View V : Type) : CollectorOp View → Type
  | .createContainerView => View
  | .retrievePropertiesEx _ => Option (RetrieveResult V)
  | .continueRetrievePropertiesEx _ => Option (RetrieveResult V)
  | .destroyView _ => Unit

abbrev CollectorScript (View V α : Type) : Type := Script (CollectorOp.Ans View V) Raised α

abbrev Rows (View V α : Type) : Type := Generator (CollectorOp.Ans View V) (Item V) Raised α

def call (o : CollectorOp View) : CollectorScript View V (o.Ans View V) :=
  @Script.perform (CollectorOp View) (CollectorOp.Ans View V) Raised o

def createViewSync (hasViewManager : Bool) : CollectorScript View V View :=
  if !hasViewManager then
    throw (.portal "CollectionError" "ViewManager에 접근할 수 없습니다. 계정 권한을 확인하세요.")
  else call .createContainerView

def releaseViewSync (view : View) : CollectorScript View V Unit :=
  Script.tryCatch (call (.destroyView view)) fun _ => pure ()

def retrievePageSync (view : View) :
    Option String → CollectorScript View V (Option (RetrieveResult V))
  | none => call (.retrievePropertiesEx view)
  | some token => call (.continueRetrievePropertiesEx token)

/-- The loop, for at most so many pages; `false` says that they were not enough. -/
def retrievePages (view : View) : ℕ → Option String → Rows View V Bool
  | 0, _ => pure false
  | fuel+1, token => do
    match ← Generator.lift (retrievePageSync view token) with
    | none => pure true
    | some result => do
      Generator.yieldAll (result.objects.map item)
      if result.continues then retrievePages view fuel result.token else pure true

def retrieve (fuel : ℕ) (hasViewManager : Bool) : Rows View V Bool := do
  let view ← Generator.lift (createViewSync hasViewManager)
  Script.tryFinally (retrievePages view fuel none) (Generator.lift (releaseViewSync view))

end

/-- How the pages come to an end. -/
inductive Ending (V : Type)
  | failed (e : Raised)
  | empty
  | last (result : RetrieveResult V) (hlast : result.continues = false)

namespace Ending

variable {V : Type}

def answer : Ending V → Except Raised (Option (RetrieveResult V))
  | .failed e => .error e
  | .empty => .ok none
  | .last result _ => .ok (some result)

def objects : Ending V → List (ObjectContent V)
  | .failed _ => []
  | .empty => []
  | .last result _ => result.objects

/-- What the consumer of a generator sees that has not been closed. -/
def exit : Ending V → Generator.Exit Raised Bool
  | .failed e => .raised e
  | .empty => .returned true
  | .last _ _ => .returned true

theorem exit_ne_closed (ending : Ending V) : ending.exit ≠ .closed := by
  cases ending <;> simp [exit]

end Ending

/-- What the server answers to the queries for pages, one after the other. -/
structure Chain (V : Type) where
  pages : List (RetrieveResult V)
  continues : ∀ page ∈ pages, page.continues = true
  ending : Ending V

namespace Chain

variable {V : Type}

def blocks (chain : Chain V) : List (List (Item V)) :=
  (chain.pages.map fun page => page.objects.map item) ++ [chain.ending.objects.map item]

def tokens (chain : Chain V) : List (Option String) :=
  none::chain.pages.map RetrieveResult.token

end Chain

/-- The server: the pages still to come, the queries for pages and the views dropped. -/
structure Server (View V : Type) where
  remaining : List (RetrieveResult V)
  requests : List (Option String) := []
  released : List View := []

namespace Server

variable {View V : Type}

def page (ending : Ending V) (token : Option String) (server : Server View V) :
    Except Raised (Option (RetrieveResult V)) × Server View V :=
  match server.remaining with
  | [] => (ending.answer,{ server with requests := server.requests ++ [token] })
  | result::remaining => (.ok (some result),
      { server with remaining := remaining, requests := server.requests ++ [token] })

def exec (created : Except Raised View) (destroyed : Except Raised Unit) (ending : Ending V) :
    (o : CollectorOp View) → Server View V → Except Raised (o.Ans View V) × Server View V
  | .createContainerView, server => (created,server)
  | .retrievePropertiesEx _, server => server.page ending none
  | .continueRetrievePropertiesEx token, server => server.page ending (some token)
  | .destroyView view, server =>
    (destroyed,{ server with released := server.released ++ [view] })

end Server

section
variable {View V : Type} {view : View} {created : Except Raised View}
  {destroyed : Except Raised Unit} {ending : Ending V} {exit : Raised}
  {closes : List (Item V) → Bool}

theorem run_retrievePageSync (token : Option String) (server : Server View V) :
    (retrievePageSync view token).run (Server.exec created destroyed ending) server =
      server.page ending token := by
  cases token with
  | none => exact Script.run_perform _ _ _
  | some token => exact Script.run_perform _ _ _

theorem run_releaseViewSync (server : Server View V) :
    (releaseViewSync view).run (Server.exec created destroyed ending) server =
      (.ok (),{ server with released := server.released ++ [view] }) := by
  rw [releaseViewSync,Script.run_tryCatch,call,Script.run_perform]
  cases destroyed <;> rfl

theorem unguarded_retrievePages (fuel : ℕ) (token : Option String) :
    (retrievePages (V:=V) view fuel token).Unguarded exit := by
  induction fuel generalizing token with
  | zero => trivial
  | succ fuel ih =>
    refine (Generator.unguarded_lift _).bind fun result => ?_
    cases result with
    | none => trivial
    | some result =>
      refine (Generator.unguarded_yieldAll _).bind fun _ => ?_
      split
      · exact ih result.token
      · trivial

/-- What is left when the answers with the given objects have been asked for with the given
tokens: all of it, or what came before the consumer closed the generator. -/
def Served (closes : List (Item V) → Bool) (blocks : List (List (Item V)))
    (tokens : List (Option String)) (natural : Generator.Exit Raised Bool) (got : List (Item V))
    (requests : List (Option String)) (left : List (Item V) × Generator.Exit Raised Bool)
    (asked : List (Option String)) : Prop :=
  (left.2 = natural ∧ left.1 = got ++ blocks.flatten ∧ asked = requests ++ tokens) ∨
  (left.2 = .closed ∧ closes left.1 = true ∧ ∃ m block front, blocks[m]? = some block ∧
    front ≠ [] ∧ front <+: block ∧ left.1 = got ++ (blocks.take m).flatten ++ front ∧
    asked = requests ++ tokens.take (m+1))

theorem Served.cons {blocks : List (List (Item V))} {block : List (Item V)}
    {tokens : List (Option String)} {token : Option String}
    {natural : Generator.Exit Raised Bool} {got : List (Item V)}
    {requests asked : List (Option String)} {left : List (Item V) × Generator.Exit Raised Bool}
    (h : Served closes blocks tokens natural (got ++ block) (requests ++ [token]) left asked) :
    Served closes (block::blocks) (token::tokens) natural got requests left asked := by
  rcases h with ⟨hexit,hgot,hasked⟩ | ⟨hexit,hcloses,m,last,front,hlast,hne,hfront,hgot,hasked⟩
  · refine .inl ⟨hexit,?_,?_⟩
    · rw [hgot,List.flatten_cons,List.append_assoc]
    · rw [hasked,List.append_assoc,List.singleton_append]
  · refine .inr ⟨hexit,hcloses,m+1,last,front,hlast,hne,hfront,?_,?_⟩
    · rw [hgot,List.take_succ_cons,List.flatten_cons]
      simp only [List.append_assoc]
    · rw [hasked,List.append_assoc,List.singleton_append,List.take_succ_cons]

/-- The values of one answer, and then the rest unless the consumer closes among them. -/
theorem consume_answer {S : Type} {exec : (o : CollectorOp View) → S →
      Except Raised (o.Ans View V) × S} (ys : List (Item V)) (f : Unit → Rows View V Bool)
    (got : List (Item V)) (s : S) :
    Generator.consume exec exit closes (Generator.yieldAll ys >>= f) got s =
        Generator.consume exec exit closes (f ()) (got ++ ys) s ∨
      ∃ front, front ≠ [] ∧ front <+: ys ∧ closes (got ++ front) = true ∧
        Generator.consume exec exit closes (Generator.yieldAll ys >>= f) got s =
          (got ++ front,.closed,s) := by
  rw [Generator.consume_yieldAll]
  cases htaken : (Generator.taken closes got ys).2 with
  | false =>
    rw [if_neg (by simp),Generator.taken_of_not_closed htaken]
    exact .inl rfl
  | true =>
    obtain ⟨hcloses,front,hne,hfront,hfirst⟩ := Generator.taken_of_closed htaken
    rw [hfirst] at hcloses
    refine .inr ⟨front,hne,hfront,hcloses,?_⟩
    rw [if_pos rfl,hfirst]

theorem consume_retrievePages (pages : List (RetrieveResult V))
    (hcontinues : ∀ page ∈ pages, page.continues = true) (fuel : ℕ) (hfuel : pages.length < fuel)
    (token : Option String) (got : List (Item V)) (requests : List (Option String))
    (released : List View) :
    let run := Generator.consume (Server.exec created destroyed ending) exit closes
      (retrievePages view fuel token) got ⟨pages,requests,released⟩
    Served closes ((pages.map fun page => page.objects.map item) ++ [ending.objects.map item])
        (token::pages.map RetrieveResult.token) ending.exit got requests (run.1,run.2.1)
        run.2.2.requests ∧
      run.2.2.released = released := by
  induction pages generalizing fuel token got requests with
  | nil =>
    obtain ⟨fuel,rfl⟩ := Nat.exists_eq_add_of_lt hfuel
    simp only [List.length_nil,Nat.zero_add,retrievePages]
    rw [Generator.consume_lift,run_retrievePageSync]
    simp only [Server.page]
    cases ending with
    | failed e => exact ⟨.inl ⟨rfl,by simp [Ending.objects,Ending.answer],rfl⟩,rfl⟩
    | empty => exact ⟨.inl ⟨rfl,by simp [Ending.objects,Ending.answer]; rfl,rfl⟩,rfl⟩
    | last result hlast =>
      simp only [Ending.answer,hlast,Bool.false_eq_true,if_false]
      rcases @consume_answer View V exit closes _ (Server.exec created destroyed _)
        (result.objects.map item) (fun _ => pure true) got ⟨[],requests ++ [token],released⟩ with
        hrun | ⟨front,hne,hfront,hcloses,hrun⟩
      · rw [hrun]
        exact ⟨.inl ⟨rfl,by simp [Ending.objects]; rfl,rfl⟩,rfl⟩
      · rw [hrun]
        exact ⟨.inr ⟨rfl,hcloses,0,_,front,rfl,hne,hfront,by simp,rfl⟩,rfl⟩
  | cons page pages ih =>
    obtain ⟨fuel,rfl⟩ := Nat.exists_eq_succ_of_ne_zero (Nat.ne_zero_of_lt hfuel)
    have hpage := hcontinues page List.mem_cons_self
    have hrest := fun page hmem => hcontinues page (List.mem_cons_of_mem _ hmem)
    simp only [retrievePages]
    rw [Generator.consume_lift,run_retrievePageSync]
    simp only [Server.page,hpage,if_true]
    rcases @consume_answer View V exit closes _ (Server.exec created destroyed ending)
      (page.objects.map item) (fun _ => retrievePages view fuel page.token) got
      ⟨pages,requests ++ [token],released⟩ with hrun | ⟨front,hne,hfront,hcloses,hrun⟩
    · rw [hrun]
      obtain ⟨hserved,hreleased⟩ := ih hrest fuel (Nat.lt_of_succ_lt_succ hfuel) page.token
        (got ++ page.objects.map item) (requests ++ [token])
      exact ⟨hserved.cons,hreleased⟩
    · rw [hrun]
      exact ⟨.inr ⟨rfl,hcloses,0,_,front,rfl,hne,hfront,by simp,rfl⟩,rfl⟩

theorem run_createViewSync (server : Server View V) :
    (createViewSync true).run (Server.exec created destroyed ending) server = (created,server) :=
  Script.run_perform _ _ _

theorem consume_retrieve (fuel : ℕ) (server : Server View V) :
    Generator.consume (Server.exec (.ok view) destroyed ending) exit closes (retrieve fuel true) []
        server =
      let run := Generator.consume (Server.exec (.ok view) destroyed ending) exit closes
        (retrievePages view fuel none) [] server
      (run.1,run.2.1,{ run.2.2 with released := run.2.2.released ++ [view] }) := by
  rw [retrieve,Generator.consume_lift,run_createViewSync]
  dsimp only
  rw [Generator.consume_tryFinally (unguarded_retrievePages fuel none)
    (fun server => congrArg Prod.fst (run_releaseViewSync server)),run_releaseViewSync]

theorem consume_retrieve_error (fuel : ℕ) (hasViewManager : Bool) (server : Server View V)
    (h : hasViewManager = false ∨ ∃ e, created = .error e) :
    ∃ e, Generator.consume (Server.exec created destroyed ending) exit closes
      (retrieve fuel hasViewManager) [] server = ([],.raised e,server) := by
  cases hasViewManager with
  | false => exact ⟨_,rfl⟩
  | true =>
    obtain h | ⟨e,rfl⟩ := h
    · cases h
    · refine ⟨e,?_⟩
      rw [retrieve,Generator.consume_lift,run_createViewSync]

end

/-- Three pages, the second without an object; the query for the third fails. -/
def failingChain : Chain ℕ where
  pages := [⟨[{ moId := "vm-1", propSet := some [("config.hardware.numCPU",4)] }],some "a"⟩,
    ⟨[],some "b"⟩]
  continues := by decide
  ending := .failed (.other "vmodl.fault.SystemError" "")

end PropertyCollector
end WzonePortal
