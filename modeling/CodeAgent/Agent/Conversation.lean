import CodeAgent.Record

/-! Messages and the history of a conversation. -/
namespace CodeAgent

/-- Who speaks. -/
inductive Role where
  | system
  | user
  | assistant
  deriving DecidableEq, Repr

namespace Role

/-- The name of a role. -/
def text : Role → String
  | system => "system"
  | user => "user"
  | assistant => "assistant"

/-- The role of a given name. -/
def ofText? (s : String) : Option Role :=
  [system, user, assistant].find? (·.text == s)

end Role

/-- A message. -/
structure Message where
  role : Role
  content : String
  deriving DecidableEq, Repr

namespace Message

/-- A message as an object. -/
def toJson (m : Message) : Json :=
  .obj [("role", .str m.role.text), ("content", .str m.content)]

private def readRole (v : Json) : Checked Role :=
  match v.str?.bind Role.ofText? with
  | some role => .ok role
  | none => .refused .choice

/-- The message that an object describes. -/
def read : Json → Checked Message
  | .obj fields =>
    Message.mk <$> .field fields "role" readRole <*> .field fields "content" .text
  | _ => .refused .objectType

end Message

/-- The content of the last message of a user. -/
def lastUserContent (messages : List Message) : Option String :=
  (messages.reverse.find? (·.role == .user)).map (·.content)

/-- A conversation: the system prompt, and then messages of users and assistants. -/
structure Conversation where
  prompt : String
  history : List Message
  deriving DecidableEq, Repr

namespace Conversation

/-- Start with earlier messages; system messages among them are dropped. -/
def start (prompt : String) (history : List Message) : Conversation :=
  ⟨prompt, history.filter (·.role != .system)⟩

/-- All messages, the prompt first. -/
def messages (c : Conversation) : List Message :=
  ⟨.system, c.prompt⟩ :: c.history

/-- Add a message at the end. -/
def add (c : Conversation) (m : Message) : Conversation :=
  { c with history := c.history ++ [m] }

/-- Add what the user says. -/
def addUser (c : Conversation) (content : String) : Conversation :=
  c.add ⟨.user, content⟩

/-- Add what the assistant says. -/
def addAssistant (c : Conversation) (content : String) : Conversation :=
  c.add ⟨.assistant, content⟩

@[simp] theorem messages_add (c : Conversation) (m : Message) :
    (c.add m).messages = c.messages ++ [m] := rfl

end Conversation
end CodeAgent
