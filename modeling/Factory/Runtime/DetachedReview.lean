import Factory.Extension.State

namespace Runtime

open Extension

def updateReviewRecovery (commit : Bool) (thread : FactoryThreadState) :
    Bool × FactoryThreadState :=
  let updated := if commit then thread.load.commitReviewRecovery
    else thread.load.rollbackReviewRecovery
  (updated.1, if updated.1 then thread.save updated.2 else thread)

def commitDetachedReview (thread : FactoryThreadState) : FactoryThreadState :=
  (updateReviewRecovery true thread).2

def rollbackDetachedReview (thread : FactoryThreadState) : FactoryThreadState :=
  (updateReviewRecovery false thread).2

def prepareDetachedReview (captured : Bool) (thread : FactoryThreadState) : FactoryThreadState :=
  let thread := rollbackDetachedReview thread
  if captured then thread.save thread.load.prepareReviewRecovery else thread

end Runtime
