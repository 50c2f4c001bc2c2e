import Maxrs.ReaderRun
set_option autoImplicit false

/-! From frames to acknowledgements, messages and handlers. -/
namespace Maxrs.Generation

variable {fromStr : String → Except String Packet} {g : Generation}
  {acts : List GenerationAction}

end Maxrs.Generation
