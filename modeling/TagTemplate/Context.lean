import Std.Data.TreeMap

/-! What the host hands to a template and reads back from it: named parameters, the type of the
output, and a limit on loop iterations. Templates cannot change the plain parameters. -/

namespace TagTemplate

abbrev Parameters := Std.TreeMap String String compare

structure Context where
  parameters : Parameters
  persistent : Parameters
  temporary : Parameters
  mimeType : String
  maxLoopIterations : Option Nat

namespace Context

def default : Context := ⟨∅, ∅, ∅, "text/html", none⟩

instance : Inhabited Context := ⟨default⟩

def setParameter (c : Context) (name value : String) : Context :=
  { c with parameters := c.parameters.insert name value }

def setPersistent (c : Context) (name value : String) : Context :=
  { c with persistent := c.persistent.insert name value }

def removePersistent (c : Context) (name : String) : Context :=
  { c with persistent := c.persistent.erase name }

def setTemporary (c : Context) (name value : String) : Context :=
  { c with temporary := c.temporary.insert name value }

def removeTemporary (c : Context) (name : String) : Context :=
  { c with temporary := c.temporary.erase name }

def setMimeType (c : Context) (mimeType : String) : Context := { c with mimeType }

end Context

end TagTemplate
