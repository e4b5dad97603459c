import Mcp.Http.Verbs

/-! What a request that does not pass the gates learns, and what it changes. -/
namespace Mcp.Http

open Transition Threads

variable {codec : Codec} {opts : Options} {verb : Verb} {req : Request}

/-- The gates that are the same for every verb refuse the request. -/
def Unauthorized (opts : Options) (req : Request) : Prop :=
  originAllowed req opts.allowedOrigins = false ∨ (authorize opts req).isSome = true

theorem postGate_isSome (h : Unauthorized opts req) : ∃ res, postGate opts req = some res := by
  unfold postGate
  rcases h with horigin | hauth
  · exact ⟨originNotAllowed, by simp [horigin]⟩
  · obtain ⟨res, hres⟩ := Option.isSome_iff_exists.mp hauth
    rw [hres]
    split
    · exact ⟨_, rfl⟩
    · split
      · exact ⟨_, rfl⟩
      · split <;> exact ⟨_, rfl⟩

theorem getGate_isSome (h : Unauthorized opts req) : ∃ res, getGate opts req = some res := by
  unfold getGate
  rcases h with horigin | hauth
  · exact ⟨originNotAllowed, by simp [horigin]⟩
  · obtain ⟨res, hres⟩ := Option.isSome_iff_exists.mp hauth
    rw [hres]
    split <;> exact ⟨_, rfl⟩

theorem deleteGate_isSome (h : Unauthorized opts req) :
    ∃ res, deleteGate opts req = some res := by
  unfold deleteGate
  rcases h with horigin | hauth
  · exact ⟨originNotAllowed, by simp [horigin]⟩
  · obtain ⟨res, hres⟩ := Option.isSome_iff_exists.mp hauth
    rw [hres]
    split <;> exact ⟨_, rfl⟩

/-- The handler of such a request does nothing but respond. -/
theorem handle_unauthorized (h : Unauthorized opts req) (verb : Verb) :
    ∃ res, handle opts verb req = respond res := by
  cases verb with
  | post =>
    obtain ⟨res, hres⟩ := postGate_isSome h
    exact ⟨res, by simp [handle, handlePost, hres]⟩
  | get =>
    obtain ⟨res, hres⟩ := getGate_isSome h
    exact ⟨res, by simp [handle, handleGet, hres]⟩
  | delete =>
    obtain ⟨res, hres⟩ := deleteGate_isSome h
    exact ⟨res, by simp [handle, handleDelete, hres]⟩

/-- In any two states of the host an unauthorized request gets the same response, and each state
is left as it was: the table, the sessions' queues and slots, the Servers, and what has been
called. -/
theorem unauthorized_learns_nothing (codec : Codec) (opts : Options) (verb : Verb)
    (req : Request) (h : Unauthorized opts req) : ∃ res, ∀ (w w' : World codec) (r : Reply),
      Serves opts verb req w w' r ↔ w' = w ∧ r = .response res := by
  obtain ⟨res, hres⟩ := handle_unauthorized h verb
  refine ⟨res, ?_⟩
  intro w w' r
  rw [Serves, hres]
  exact Program.serves_done

/-- A host that lets nobody in. -/
def closedHost : Options where
  bearerValidator := some fun _ => {}

/-- DELETE of a session without a token. -/
def anonymous : Request where
  headers := [("Mcp-Session-Id", "a")]
  body := ""

/-- A text codec that reads no text. -/
def noCodec : Codec where
  parse _ := none
  dump _ := none

/-- Whether the session exists or not, the DELETE is answered alike and takes nothing out. -/
theorem anonymous_delete : ∃ res, ∀ (w w' : World noCodec) (r : Reply),
    Serves closedHost .delete anonymous w w' r ↔ w' = w ∧ r = .response res :=
  unauthorized_learns_nothing noCodec closedHost .delete anonymous (.inr (by decide))

end Mcp.Http
